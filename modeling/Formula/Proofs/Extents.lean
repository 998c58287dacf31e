import Formula.Proofs.Order
import Formula.Series.Extent
/-!
# Extents describe the defined points

The extent of a series and the number of its undefined points look at the same points: the ones are counted, the others
are bounded (`Extent.ofPoints_bounds_defined`). The least of a row and the greatest are both the first in an order
(`Ranks.first_foldl`), so the place of a point in the series does not matter, nor how often it is there
(`Extent.alike_ofPoints`).
-/

namespace Formula

/-! ## The first of a row -/

/-- Numbers are put in an order, in which some are equal. What is no number is not. -/
structure Ranks (before : Float → Float → Prop) : Prop where
  total : ∀ {x y : Float}, x.isNaN = false → y.isNaN = false → before x y ∨ before y x
  trans : ∀ {x y z : Float}, x.isNaN = false → y.isNaN = false → z.isNaN = false →
    before x y → before y z → before x z
  undefined : ∀ {x y : Float}, x.isNaN ∨ y.isNaN → ¬before x y

/-- A double in a row that comes before all others, or is equal to them. -/
structure First (before : Float → Float → Prop) (first : Float) (row : List Float) : Prop where
  mem : first ∈ row
  before : ∀ x ∈ row, before first x

/-- The one of two doubles that comes first; undefined if one of them is. -/
def earlier (before : Float → Float → Prop) [DecidableRel before] (x y : Float) : Float :=
  if x.isNaN || before x y then x else y

namespace Ranks

variable {before : Float → Float → Prop} [DecidableRel before] (h : Ranks before) {x y first : Float}
  {rest : List Float}

theorem earlier_mem (before : Float → Float → Prop) [DecidableRel before] (x y : Float) :
    earlier before x y = x ∨ earlier before x y = y := by
  unfold earlier
  split
  · exact .inl rfl
  · exact .inr rfl

theorem earlier_of_before (ahead : before x y) : earlier before x y = x :=
  if_pos (by rw [decide_eq_true ahead, Bool.or_true])

theorem earlier_of_not_before (hx : x.isNaN = false) (behind : ¬before x y) : earlier before x y = y :=
  if_neg (by rw [hx, decide_eq_false behind, Bool.or_false]; exact Bool.false_ne_true)

theorem isNaN_earlier_eq_false (before : Float → Float → Prop) [DecidableRel before] (hx : x.isNaN = false)
    (hy : y.isNaN = false) : (earlier before x y).isNaN = false := by
  rcases earlier_mem before x y with same | same <;> rwa [same]

include h

theorem isNaN_earlier (undefined : x.isNaN ∨ y.isNaN) : (earlier before x y).isNaN := by
  cases hx : x.isNaN with
  | true => rwa [earlier, hx, Bool.true_or, if_pos rfl]
  | false =>
    rw [earlier_of_not_before hx (h.undefined undefined)]
    exact undefined.resolve_left (by rw [hx]; exact Bool.false_ne_true)

theorem earlier_before (hx : x.isNaN = false) (hy : y.isNaN = false) :
    before (earlier before x y) x ∧ before (earlier before x y) y := by
  have reflexive {z : Float} (hz : z.isNaN = false) : before z z := (h.total hz hz).elim id id
  by_cases ahead : before x y
  · rw [earlier_of_before ahead]
    exact ⟨reflexive hx, ahead⟩
  · rw [earlier_of_not_before hx ahead]
    exact ⟨(h.total hx hy).resolve_left ahead, reflexive hy⟩

/-- Once it is undefined, it remains so. -/
theorem isNaN_foldl (undefined : ∃ y ∈ x :: rest, y.isNaN) : (rest.foldl (earlier before) x).isNaN := by
  induction rest generalizing x with
  | nil => simpa using undefined
  | cons y rest ih =>
    -- What was undefined among the first two is what is taken of them.
    refine ih ?_
    obtain ⟨z, member, hz⟩ := undefined
    rcases List.mem_cons.1 member with rfl | member
    · exact ⟨_, List.mem_cons_self, h.isNaN_earlier (.inl hz)⟩
    · rcases List.mem_cons.1 member with rfl | member
      · exact ⟨_, List.mem_cons_self, h.isNaN_earlier (.inr hz)⟩
      · exact ⟨z, List.mem_cons_of_mem _ member, hz⟩

/-- What comes first after two doubles are replaced by the earlier one comes first of all. -/
theorem first_cons (numbers : ∀ z ∈ x :: y :: rest, z.isNaN = false)
    (left : First before first (earlier before x y :: rest)) : First before first (x :: y :: rest) := by
  have hx := numbers x (by simp)
  have hy := numbers y (by simp)
  have he := isNaN_earlier_eq_false before hx hy
  have hf : first.isNaN = false := by
    rcases List.mem_cons.1 left.mem with rfl | member
    · exact he
    · exact numbers first (by simp [member])
  have ahead := left.before _ List.mem_cons_self
  obtain ⟨beforeX, beforeY⟩ := h.earlier_before hx hy
  constructor
  · rcases List.mem_cons.1 left.mem with rfl | member
    · rcases earlier_mem before x y with same | same <;> simp [same]
    · simp [member]
  · intro z member
    rcases List.mem_cons.1 member with rfl | member
    · exact h.trans hf he hx ahead beforeX
    · rcases List.mem_cons.1 member with rfl | member
      · exact h.trans hf he hy ahead beforeY
      · exact left.before z (List.mem_cons_of_mem _ member)

theorem first_foldl (numbers : ∀ y ∈ x :: rest, y.isNaN = false) :
    First before (rest.foldl (earlier before) x) (x :: rest) := by
  induction rest generalizing x with
  | nil =>
    have hx := numbers x List.mem_cons_self
    exact ⟨List.mem_cons_self, by simpa using (h.total hx hx).elim id id⟩
  | cons y rest ih =>
    have hx := numbers x (by simp)
    have hy := numbers y (by simp)
    refine h.first_cons numbers (ih fun z member => ?_)
    rcases List.mem_cons.1 member with rfl | member
    · exact isNaN_earlier_eq_false before hx hy
    · exact numbers z (by simp [member])

end Ranks

/-! ## Least and greatest doubles -/

theorem ranks_le : Ranks (· ≤ ·) where
  total := by
    intro x y hx hy
    rw [Number.le_iff_place_le hx hy, Number.le_iff_place_le hy hx]
    exact le_total _ _
  trans := by
    intro x y z hx hy hz
    rw [Number.le_iff_place_le hx hy, Number.le_iff_place_le hy hz, Number.le_iff_place_le hx hz]
    exact le_trans
  undefined := Number.not_le_of_isNaN

theorem ranks_ge : Ranks (· ≥ ·) where
  total hx hy := ranks_le.total hy hx
  trans hx hy hz first second := ranks_le.trans hz hy hx second first
  undefined h := ranks_le.undefined h.symm

/-- The least and the greatest of a row, or no numbers if the row has one that is none. -/
structure Ends (least greatest : Float) (row : List Float) : Prop where
  undefined : (∃ x ∈ row, x.isNaN) → least.isNaN ∧ greatest.isNaN
  numbers : (∀ x ∈ row, x.isNaN = false) → First (· ≤ ·) least row ∧ First (· ≥ ·) greatest row

theorem ends_foldl (x : Float) (rest : List Float) :
    Ends (rest.foldl Extent.lesser x) (rest.foldl Extent.greater x) (x :: rest) where
  undefined h := ⟨ranks_le.isNaN_foldl h, ranks_ge.isNaN_foldl h⟩
  numbers h := ⟨ranks_le.first_foldl h, ranks_ge.first_foldl h⟩

/-- Two doubles are equal as numbers, or no numbers both. -/
def Alike (x y : Float) : Prop :=
  (x == y) = true ∨ x.isNaN ∧ y.isNaN

theorem alike_of_le {x y : Float} (hx : x.isNaN = false) (hy : y.isNaN = false) (below : x ≤ y) (above : y ≤ x) :
    Alike x y := by
  rw [Number.le_iff_place_le hx hy] at below
  rw [Number.le_iff_place_le hy hx] at above
  exact .inl ((Number.beq_iff_place_eq hx hy).2 (le_antisymm below above))

/-- Rows of the same doubles have the same ends. -/
theorem Ends.alike {least greatest least' greatest' : Float} {row row' : List Float} (h : Ends least greatest row)
    (h' : Ends least' greatest' row') (same : ∀ x, x ∈ row ↔ x ∈ row') :
    Alike least least' ∧ Alike greatest greatest' := by
  by_cases numbers : ∀ x ∈ row, x.isNaN = false
  · have numbers' : ∀ x ∈ row', x.isNaN = false := fun x member => numbers x ((same x).2 member)
    obtain ⟨first, last⟩ := h.numbers numbers
    obtain ⟨first', last'⟩ := h'.numbers numbers'
    exact ⟨alike_of_le (numbers _ first.mem) (numbers' _ first'.mem) (first.before _ ((same _).2 first'.mem))
        (first'.before _ ((same _).1 first.mem)),
      alike_of_le (numbers _ last.mem) (numbers' _ last'.mem) (last'.before _ ((same _).1 last.mem))
        (last.before _ ((same _).2 last'.mem))⟩
  · have undefined : ∃ x ∈ row, x.isNaN := by
      simpa only [not_forall, Bool.not_eq_false, exists_prop] using numbers
    obtain ⟨x, member, hx⟩ := undefined
    obtain ⟨least, greatest⟩ := h.undefined ⟨x, member, hx⟩
    obtain ⟨least', greatest'⟩ := h'.undefined ⟨x, (same x).1 member, hx⟩
    exact ⟨.inr ⟨least, least'⟩, .inr ⟨greatest, greatest'⟩⟩

namespace Extent

/-! ## Extents -/

/-- The points with a finite value. -/
def defined (points : List (Float × Float)) : List (Float × Float) :=
  points.filter fun point => point.2.isFinite

/-- What an extent says of the points with a finite value, if there are any. -/
structure Bounds (extent : Extent) (points : List (Float × Float)) : Prop where
  minY : First (· ≤ ·) extent.minY ((defined points).map Prod.snd)
  maxY : First (· ≥ ·) extent.maxY ((defined points).map Prod.snd)
  finite : extent.minY.isFinite ∧ extent.maxY.isFinite
  x : Ends extent.minX extent.maxX ((defined points).map Prod.fst)

/-- Two extents are equal, zeros of both signs being equal. -/
structure Alike (extent extent' : Extent) : Prop where
  minX : Formula.Alike extent.minX extent'.minX
  maxX : Formula.Alike extent.maxX extent'.maxX
  minY : Formula.Alike extent.minY extent'.minY
  maxY : Formula.Alike extent.maxY extent'.maxY

variable {points points' : List (Float × Float)}

theorem mem_defined {point : Float × Float} : point ∈ defined points ↔ point ∈ points ∧ point.2.isFinite :=
  List.mem_filter

theorem ofPoints_of_defined_eq_nil (h : defined points = []) : ofPoints points = empty := by
  unfold defined at h
  rw [ofPoints, h]

theorem ofPoints_defined (points : List (Float × Float)) : ofPoints (defined points) = ofPoints points := by
  rw [ofPoints, ofPoints, defined, List.filter_filter]
  simp only [Bool.and_self]

theorem ofPoints_of_defined_eq_cons {point : Float × Float} {rest : List (Float × Float)}
    (h : defined points = point :: rest) :
    ofPoints points =
      { minX := (rest.map Prod.fst).foldl lesser point.1
        maxX := (rest.map Prod.fst).foldl greater point.1
        minY := (rest.map Prod.snd).foldl lesser point.2
        maxY := (rest.map Prod.snd).foldl greater point.2 } := by
  unfold defined at h
  rw [ofPoints, h]
  simp only [List.foldl_map]

theorem isFinite_of_mem_values {y : Float} (h : y ∈ (defined points).map Prod.snd) : y.isFinite := by
  obtain ⟨point, member, rfl⟩ := List.mem_map.1 h
  exact (mem_defined.1 member).2

theorem bounds_ofPoints (h : defined points ≠ []) : (ofPoints points).Bounds points := by
  obtain ⟨point, rest, split⟩ := List.exists_cons_of_ne_nil h
  have xs : (defined points).map Prod.fst = point.1 :: rest.map Prod.fst := by rw [split, List.map_cons]
  have ys : (defined points).map Prod.snd = point.2 :: rest.map Prod.snd := by rw [split, List.map_cons]
  have numbers : ∀ y ∈ (defined points).map Prod.snd, y.isNaN = false := fun y member =>
    Number.isNaN_of_isFinite (isFinite_of_mem_values member)
  have values : Ends (ofPoints points).minY (ofPoints points).maxY ((defined points).map Prod.snd) := by
    rw [ofPoints_of_defined_eq_cons split, ys]
    exact ends_foldl _ _
  obtain ⟨least, greatest⟩ := values.numbers numbers
  refine ⟨least, greatest, ⟨isFinite_of_mem_values least.mem, isFinite_of_mem_values greatest.mem⟩, ?_⟩
  rw [ofPoints_of_defined_eq_cons split, xs]
  exact ends_foldl _ _

theorem Bounds.values {extent : Extent} (h : extent.Bounds points) :
    Ends extent.minY extent.maxY ((defined points).map Prod.snd) where
  undefined := by
    rintro ⟨y, member, undefined⟩
    rw [Number.isNaN_of_isFinite (isFinite_of_mem_values member)] at undefined
    cases undefined
  numbers _ := ⟨h.minY, h.maxY⟩

/-- Only the points with a finite value matter, and each of them once. -/
theorem alike_ofPoints (same : ∀ point, point ∈ defined points ↔ point ∈ defined points') :
    (ofPoints points).Alike (ofPoints points') := by
  by_cases none : defined points = []
  · have none' : defined points' = [] := by
      refine List.eq_nil_iff_forall_not_mem.2 fun point member => ?_
      exact List.not_mem_nil (none ▸ (same point).2 member)
    rw [ofPoints_of_defined_eq_nil none, ofPoints_of_defined_eq_nil none']
    exact ⟨.inl rfl, .inl rfl, .inl rfl, .inl rfl⟩
  · have some' : defined points' ≠ [] := by
      obtain ⟨point, rest, split⟩ := List.exists_cons_of_ne_nil none
      have member : point ∈ defined points := by simp [split]
      exact List.ne_nil_of_mem ((same point).1 member)
    have mapped (f : Float × Float → Float) (x : Float) :
        x ∈ (defined points).map f ↔ x ∈ (defined points').map f := by
      simp only [List.mem_map, same]
    have bounds := bounds_ofPoints none
    have bounds' := bounds_ofPoints some'
    obtain ⟨minX, maxX⟩ := bounds.x.alike bounds'.x (mapped Prod.fst)
    obtain ⟨minY, maxY⟩ := bounds.values.alike bounds'.values (mapped Prod.snd)
    exact ⟨minX, maxX, minY, maxY⟩

/-- Where all points are finite, so are the least and the greatest. -/
theorem isFinite_ofPoints (h : ∀ point ∈ points, point.1.isFinite) :
    (ofPoints points).minX.isFinite ∧ (ofPoints points).maxX.isFinite := by
  by_cases none : defined points = []
  · rw [ofPoints_of_defined_eq_nil none]
    decide
  · have finite : ∀ x ∈ (defined points).map Prod.fst, x.isFinite := by
      intro x mapped
      obtain ⟨point, member, rfl⟩ := List.mem_map.1 mapped
      exact h point (mem_defined.1 member).1
    obtain ⟨least, greatest⟩ := (bounds_ofPoints none).x.numbers fun x member =>
      Number.isNaN_of_isFinite (finite x member)
    exact ⟨finite _ least.mem, finite _ greatest.mem⟩

/-! ## Counting -/

theorem countUndefined_eq (points : List (Float × Float)) :
    countUndefined points = (points.filter fun point => point.2.isNaN || point.2.isInf).length := by
  rw [countUndefined, List.countP_eq_length_filter]
  simp only [Number.isFinite_eq, Bool.not_not]

theorem countUndefined_add (points : List (Float × Float)) :
    (defined points).length + countUndefined points = points.length := by
  rw [countUndefined, defined, ← List.countP_eq_length_filter, List.length_eq_countP_add_countP fun point =>
    point.2.isFinite]
  simp

/-- The points whose values are not finite are counted, the extent is that of all others. -/
theorem ofPoints_bounds_defined (points : List (Float × Float)) :
    countUndefined points = (points.filter fun point => point.2.isNaN || point.2.isInf).length ∧
    (countUndefined points = points.length → ofPoints points = ⟨0, 0, 0, 0⟩) ∧
    (countUndefined points < points.length → (ofPoints points).Bounds points) ∧
    ofPoints (defined points) = ofPoints points ∧
    ∀ points', (∀ point, point.2.isFinite → (point ∈ points ↔ point ∈ points')) →
      (ofPoints points).Alike (ofPoints points') := by
  have counted := countUndefined_add points
  refine ⟨countUndefined_eq points, fun all => ?_, fun some => ?_, ofPoints_defined points, fun points' same => ?_⟩
  · exact ofPoints_of_defined_eq_nil (List.length_eq_zero_iff.1 (by omega))
  · exact bounds_ofPoints (List.ne_nil_of_length_pos (by omega))
  · refine alike_ofPoints fun point => ?_
    simp only [mem_defined]
    exact and_congr_left (same point)

/-- A point that is infinite itself has no part in the extent if its value is undefined. -/
theorem ofPoints_bounds_defined_mixed :
    let points : List (Float × Float) := [(0, 3), (1 / 0, 0 / 0), (2, -1), (3, 1 / 0)]
    countUndefined points < points.length ∧ (ofPoints points).Bounds points ∧
      (∀ point : Float × Float, point.2.isFinite → (point ∈ points ↔ point ∈ [(2, -1), (0, 3), (2, -1)])) ∧
      (ofPoints points).Alike (ofPoints [(2, -1), (0, 3), (2, -1)]) := by
  intro points
  have some : countUndefined points < points.length := by decide
  have shuffled {p a b c d : Float × Float} (hb : p ≠ b) (hd : p ≠ d) : p ∈ [a, b, c, d] ↔ p ∈ [c, a, c] := by
    simp only [List.mem_cons, hb, hd, List.not_mem_nil]
    tauto
  have same (point : Float × Float) (finite : point.2.isFinite) :
      point ∈ points ↔ point ∈ [(2, -1), (0, 3), (2, -1)] := by
    have second : point ≠ (1 / 0, 0 / 0) := by
      rintro rfl
      exact absurd finite (by decide)
    have last : point ≠ (3, 1 / 0) := by
      rintro rfl
      exact absurd finite (by decide)
    exact shuffled second last
  obtain ⟨-, -, bounded, -, alike⟩ := ofPoints_bounds_defined points
  exact ⟨some, bounded some, same, alike _ same⟩

end Extent

end Formula
