import Formula.Command.Run
import Mathlib
/-!
# Reading the output back

What the commands write is cut into lines, and the lines into fields (`fields`). The text of a number holds no line end
and no separator (`plain_write`), so the fields of a series are the texts of its numbers, in their order.
-/

namespace Formula

/-! ## The text of a number -/

namespace Number

/-- The characters of numbers, and of the names of the infinite and the undefined ones. -/
def isPlain (c : Char) : Bool :=
  c.isDigit || ['+', '-', '.', 'e', 'i', 'n', 'f', 'a'].contains c

def Plain (text : String) : Prop :=
  ∀ c ∈ text.toList, isPlain c

instance (text : String) : Decidable (Plain text) :=
  decidable_of_iff (text.toList.all isPlain) List.all_eq_true

namespace Plain

variable {first second : String} {digits : List Char}

theorem append (hf : Plain first) (hs : Plain second) : Plain (first ++ second) := by
  intro c hc
  rw [String.toList_append] at hc
  exact (List.mem_append.1 hc).elim (hf c) (hs c)

theorem ite {condition : Prop} [Decidable condition] (hf : Plain first) (hs : Plain second) :
    Plain (if condition then first else second) := by
  split
  · exact hf
  · exact hs

theorem ofDigits (h : ∀ c ∈ digits, c.isDigit) : Plain (String.ofList digits) := by
  intro c hc
  rw [String.toList_ofList] at hc
  rw [isPlain, h c hc]
  rfl

theorem notMem (h : Plain first) {c : Char} (hc : isPlain c = false) : c ∉ first.toList := by
  intro member
  rw [h c member] at hc
  cases hc

end Plain

namespace Decimal

variable {c : Char}

theorem isDigit_of_mem_ofCoefficient {coefficient : Nat} {power : Int}
    (h : c ∈ (ofCoefficient coefficient power).digits) : c.isDigit := by
  unfold ofCoefficient at h
  split at h
  · rw [List.mem_singleton.1 h]
    rfl
  · have := List.mem_reverse.1 ((List.dropWhile_sublist _).mem (List.mem_reverse.1 h))
    exact Nat.isDigit_of_mem_toDigits (by decide) (by decide) this

theorem isDigit_of_mem_rounded {places m : Nat} {e : Int} (h : c ∈ (rounded places m e).digits) : c.isDigit :=
  isDigit_of_mem_ofCoefficient h

theorem isDigit_of_mem_shortest {m : Nat} {e : Int} (h : c ∈ (shortest m e).digits) : c.isDigit := by
  unfold shortest at h
  dsimp only at h
  generalize found : List.findSome? _ _ = result at h
  cases result with
  | none => exact isDigit_of_mem_rounded h
  | some decimal =>
    obtain ⟨n, -, hn⟩ := List.exists_of_findSome?_eq_some found
    obtain ⟨coefficient, -, rfl⟩ := Option.map_eq_some_iff.1 hn
    exact isDigit_of_mem_ofCoefficient h

end Decimal

namespace Layout

theorem plain_exponentText (exponent : Int) : Plain (exponentText exponent) := by
  have digits : Plain (toString exponent.natAbs) := by
    rw [Nat.toString_eq_ofList_toDigits]
    exact .ofDigits fun c hc => Nat.isDigit_of_mem_toDigits (by decide) (by decide) hc
  exact ((Plain.ite (by decide) (by decide)).append (Plain.ite (by decide) (by decide))).append digits

variable {d : Decimal} (digits : ∀ c ∈ d.digits, c.isDigit)

include digits

theorem plain_withPower : Plain (withPower d) := by
  have first : Plain (String.ofList (d.digits.take 1)) := .ofDigits fun c hc => digits c (List.mem_of_mem_take hc)
  have rest : Plain (String.ofList (d.digits.drop 1)) := .ofDigits fun c hc => digits c (List.mem_of_mem_drop hc)
  have point : Plain "." := by decide
  have mark : Plain "e" := by decide
  exact ((first.append (.ite (by decide) (point.append rest))).append mark).append (plain_exponentText _)

theorem plain_inFull (layout : Layout) : Plain (layout.inFull d) := by
  have zeros : ∀ n, ∀ c ∈ List.replicate n '0', c.isDigit := by
    intro n c hc
    rw [List.eq_of_mem_replicate hc]
    rfl
  have point : Plain "." := by decide
  unfold inFull
  dsimp only
  split
  · have start : Plain "0." := by decide
    exact start.append (.ofDigits fun c hc => (List.mem_append.1 hc).elim (zeros _ c) (digits c))
  · have rest : Plain (String.ofList (d.digits.drop (d.exponent.toNat + 1))) :=
      .ofDigits fun c hc => digits c (List.mem_of_mem_drop hc)
    refine Plain.append (.ofDigits fun c hc => ?_) (.ite (.ite (by decide) (by decide)) (point.append rest))
    exact (List.mem_append.1 hc).elim (fun h => digits c (List.mem_of_mem_take h)) (zeros _ c)

theorem plain_write (layout : Layout) : Plain (layout.write d) := by
  unfold write
  exact .ite (plain_inFull digits layout) (plain_withPower digits)

end Layout

/-- The text of a number is plain if the decimals of the layout consist of digits. -/
theorem plain_write {choose : Nat → Int → Decimal} (digits : ∀ m e, ∀ c ∈ (choose m e).digits, c.isDigit)
    (layout : Layout) (x : Float) : Plain (write layout choose x) := by
  have minus : Plain "-" := by decide
  have zero : Plain (layout.write ⟨['0'], 0⟩) := Layout.plain_write (by simp) layout
  unfold write
  split
  · decide
  · decide
  · decide
  · exact zero
  · exact minus.append zero
  · next m e _ _ => exact Layout.plain_write (digits m e) layout
  · next m e _ _ => exact minus.append (Layout.plain_write (digits m e) layout)

theorem plain_general (places : Nat) (x : Float) : Plain (general places x) :=
  plain_write (fun _ _ _ hc => Decimal.isDigit_of_mem_rounded hc) _ x

theorem plain_exact (x : Float) : Plain (exact x) :=
  plain_write (fun _ _ _ hc => Decimal.isDigit_of_mem_shortest hc) _ x

end Number

namespace Command

open Formula.Number

/-! ## Lines and fields -/

/-- The fields of a text, line by line. Behind the last line end there is one more line, which may be empty. -/
def fields (separator : Char) (text : String) : List (List String) :=
  (text.toList.splitOn '\n').map fun line => (line.splitOn separator).map String.ofList

theorem lines_single (line : String) : lines [line] = line ++ "\n" := by
  simp [lines, String.join_cons]

/-- A text is one line with the given fields. -/
structure IsRow (separator : Char) (line : String) (cells : List String) : Prop where
  single : '\n' ∉ line.toList
  cells : line.toList.splitOn separator = cells.map String.toList

section Row

variable {separator : Char} {field line : String} {cells : List String}

theorem isRow_single (single : '\n' ∉ field.toList) (free : separator ∉ field.toList) : IsRow separator field [field] where
  single := single
  cells := List.splitOn_eq_singleton free

theorem IsRow.cons (row : IsRow separator line cells) (single : '\n' ∉ field.toList) (free : separator ∉ field.toList)
    (other : separator ≠ '\n') : IsRow separator (field ++ separator.toString ++ line) (field :: cells) := by
  have whole : (field ++ separator.toString ++ line).toList = field.toList ++ separator :: line.toList := by simp
  refine ⟨?_, ?_⟩
  · rw [whole, List.mem_append, List.mem_cons, not_or, not_or]
    exact ⟨single, other.symm, row.single⟩
  · rw [whole, List.splitOn_append_cons_self_of_not_mem free, row.cells, List.map_cons]

end Row

theorem fields_lines {separator : Char} {rows : List String} {cells : List (List String)}
    (h : List.Forall₂ (IsRow separator) rows cells) : fields separator (lines rows) = cells ++ [[""]] := by
  induction h with
  | nil => rfl
  | @cons row cells rows rest isRow _ ih =>
    have first : lines (row :: rows) = row ++ "\n" ++ lines rows := String.join_cons
    have split : (lines (row :: rows)).toList = row.toList ++ '\n' :: (lines rows).toList := by
      rw [first]
      simp
    have same : (row.toList.splitOn separator).map String.ofList = cells := by
      rw [isRow.cells, List.map_map]
      simp [Function.comp_def]
    rw [fields, split, List.splitOn_append_cons_self_of_not_mem isRow.single, List.map_cons, same]
    exact congrArg (cells :: ·) ih

theorem forall_isRow {α : Type} {separator : Char} {row : α → String} {cells : α → List String}
    (h : ∀ item, IsRow separator (row item) (cells item)) (items : List α) :
    List.Forall₂ (IsRow separator) (items.map row) (items.map cells) := by
  rw [List.forall₂_map_left_iff, List.forall₂_map_right_iff, List.forall₂_same]
  exact fun item _ => h item

/-! ## The rows of the commands -/

/-- The line with the bounds of a series. -/
def boundsLine (extent : Extent) : String :=
  "Data range: x=[" ++ general 6 extent.minX ++ ", " ++ general 6 extent.maxX ++ "], y=[" ++
    general 6 extent.minY ++ ", " ++ general 6 extent.maxY ++ "]"

theorem isRow_pair {separator : Char} {first second : String} (hf : Plain first) (hs : Plain second)
    (special : isPlain separator = false) (other : separator ≠ '\n') :
    IsRow separator (first ++ separator.toString ++ second) [first, second] :=
  (isRow_single (hs.notMem rfl) (hs.notMem special)).cons (hf.notMem rfl) (hf.notMem special) other

theorem isRow_sampleLine (x y : Float) : IsRow '\t' (sampleLine x y) [general 6 x, general 10 y] :=
  isRow_pair (plain_general 6 x) (plain_general 10 y) rfl (by decide)

theorem plain_cell (x : Float) : Plain (cell x) :=
  .ite (by decide) (plain_exact x)

theorem isRow_cells (x y : Float) : IsRow ',' (cell x ++ "," ++ cell y) [cell x, cell y] :=
  isRow_pair (plain_cell x) (plain_cell y) rfl (by decide)

theorem isRow_valueLine (x y : Float) : IsRow ' ' (valueLine x y) [general 6 x, "->", general 10 y] := by
  have line : valueLine x y = general 6 x ++ " -> " ++ general 10 y := rfl
  have arrow : " -> " = " " ++ ("->" ++ " ") := rfl
  have value : IsRow ' ' (general 10 y) [general 10 y] :=
    isRow_single ((plain_general 10 y).notMem rfl) ((plain_general 10 y).notMem rfl)
  have behind : IsRow ' ' ("->" ++ " " ++ general 10 y) ["->", general 10 y] :=
    value.cons (by decide) (by decide) (by decide)
  rw [line, arrow, ← String.append_assoc, String.append_assoc]
  exact behind.cons ((plain_general 6 x).notMem rfl) ((plain_general 6 x).notMem rfl) (by decide)

theorem extentLine_eq (extent : Extent) : extentLine extent = boundsLine extent := by
  have line : extentLine extent =
      "Data range: x=[" ++ general 6 extent.minX ++ ", " ++ general 6 extent.maxX ++ "], " ++
        ("y=[" ++ general 6 extent.minY ++ ", " ++ general 6 extent.maxY ++ "]") := rfl
  have middle : "], y=[" = "], " ++ "y=[" := rfl
  unfold boundsLine
  rw [line, middle]
  simp only [String.append_assoc]

theorem notMem_boundsLine {c : Char} (special : isPlain c = false)
    (other : ∀ text ∈ ["Data range: x=[", ", ", "], y=[", "]"], c ∉ text.toList) (extent : Extent) :
    c ∉ (boundsLine extent).toList := by
  have number (x : Float) : c ∉ (general 6 x).toList := (plain_general 6 x).notMem special
  simp only [List.forall_mem_cons] at other
  obtain ⟨start, comma, middle, last, -⟩ := other
  unfold boundsLine
  simp only [String.toList_append, List.mem_append, not_or]
  exact ⟨⟨⟨⟨⟨⟨⟨⟨start, number _⟩, comma⟩, number _⟩, middle⟩, number _⟩, comma⟩, number _⟩, last⟩

theorem isRow_boundsLine (extent : Extent) : IsRow '\t' (boundsLine extent) [boundsLine extent] :=
  isRow_single (notMem_boundsLine rfl (by decide) extent) (notMem_boundsLine rfl (by decide) extent)

/-! ## The texts of the commands -/

/-- A number in a table. The place of an undefined one stays empty. -/
def entry (x : Float) : String :=
  if x.isNaN then "" else exact x

/-- A text with a line for each point and the value there. -/
structure PrintsValues (points : List (Float × Float)) (output : String) : Prop where
  text : output = String.join (points.map fun (x, y) => general 6 x ++ " -> " ++ general 10 y ++ "\n")
  rows : fields ' ' output = points.map (fun (x, y) => [general 6 x, "->", general 10 y]) ++ [[""]]

/-- A text with a line for each point of a series and its value, and a line with the bounds. -/
structure PrintsSeries (points : List (Float × Float)) (output : String) : Prop where
  text : output = String.join (points.map fun (x, y) => general 6 x ++ "\t" ++ general 10 y ++ "\n") ++
    boundsLine (Extent.ofPoints points) ++ "\n"
  rows : fields '\t' output = points.map (fun (x, y) => [general 6 x, general 10 y]) ++
    [[boundsLine (Extent.ofPoints points)], [""]]

/-- A file with a line of titles, and a line for each point of a series and its value. It is not packed, unless the
ending of its path asks for that. -/
structure SavesSeries (points : List (Float × Float)) (file : File) : Prop where
  text : file.text = "x,y\n" ++ String.join (points.map fun (x, y) => entry x ++ "," ++ entry y ++ "\n")
  rows : fields ',' file.text = ["x", "y"] :: points.map (fun (x, y) => [entry x, entry y]) ++ [[""]]
  plain : file.packing? = none ↔ ∀ ending ∈ [".gz", ".bz2", ".xz", ".zst", ".zip", ".tar"],
    ¬ ending.toList <:+ file.path.toList.map Char.toLower

theorem printsValues (points : List (Float × Float)) :
    PrintsValues points (lines (points.map fun (x, y) => valueLine x y)) where
  text := by
    rw [lines, List.map_map]
    rfl
  rows := fields_lines (forall_isRow (fun (x, y) => isRow_valueLine x y) points)

theorem printsSeries (points : List (Float × Float)) : PrintsSeries points
    (lines (points.map (fun (x, y) => sampleLine x y) ++ [extentLine (Extent.ofPoints points)])) where
  text := by
    rw [lines, List.map_append, String.join_append, List.map_map, extentLine_eq, String.append_assoc]
    rfl
  rows := by
    have samples : List.Forall₂ (IsRow '\t') (points.map fun (x, y) => sampleLine x y)
        (points.map fun (x, y) => [general 6 x, general 10 y]) :=
      forall_isRow (fun (x, y) => isRow_sampleLine x y) points
    have bounds : List.Forall₂ (IsRow '\t') [boundsLine (Extent.ofPoints points)]
        [[boundsLine (Extent.ofPoints points)]] := .cons (isRow_boundsLine _) .nil
    rw [extentLine_eq, fields_lines (List.rel_append samples bounds), List.append_assoc]
    rfl

theorem savesSeries (points : List (Float × Float)) (path : String) : SavesSeries points ⟨path, table points⟩ where
  text := by
    rw [table, lines, List.map_cons, String.join_cons, List.map_map]
    rfl
  rows := by
    have titles : IsRow ',' "x,y" ["x", "y"] := ⟨by decide, by decide⟩
    exact fields_lines (.cons titles (forall_isRow (fun (x, y) => isRow_cells x y) points))
  plain := File.packing?_eq_none_iff

end Command

end Formula
