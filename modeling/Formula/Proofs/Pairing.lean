import Formula.Proofs.Nesting
/-!
# Brackets that belong together

A row is read from left to right. Every opening bracket is open until a closing one comes for which it is the innermost,
and the two belong together (`Pairs`); a closing bracket with no bracket open belongs to none. `opened` are the places
of the brackets that stay open behind a row. They are the opening brackets that belong to no closing one
(`mem_opened_iff`), and what lies in the innermost of them directly lies in no pair (`head?_opened_take_iff`).
-/

namespace Formula.Bracket

variable {row : List (Option Bracket)} {entry : Option Bracket} {first last place start : Nat}

/-- The places of the open brackets behind one more entry of a row, from those before it, innermost first. -/
def openedBehind (before : List Nat) : Option Bracket × Nat → List Nat
  | (some .opening, place) => place :: before
  | (some .closing, _) => before.tail
  | (none, _) => before

/-- The places of the brackets that are open behind a row, innermost first. -/
def opened (row : List (Option Bracket)) : List Nat :=
  row.zipIdx.foldl openedBehind []

/-- The bracket that opens at a place is closed at another one. -/
def Pairs (row : List (Option Bracket)) (first last : Nat) : Prop :=
  row[last]? = some (some .closing) ∧ (opened (row.take last)).head? = some first

instance (row : List (Option Bracket)) (first last : Nat) : Decidable (Pairs row first last) :=
  inferInstanceAs (Decidable (_ ∧ _))

/-- A place lies between two brackets that belong together. -/
def Enclosed (row : List (Option Bracket)) (place : Nat) : Prop :=
  ∃ first < place, ∃ last < row.length, place < last ∧ Pairs row first last

instance (row : List (Option Bracket)) (place : Nat) : Decidable (Enclosed row place) :=
  inferInstanceAs (Decidable (∃ first < place, ∃ last < row.length, place < last ∧ Pairs row first last))

theorem opened_concat (row : List (Option Bracket)) (entry : Option Bracket) :
    opened (row ++ [entry]) = openedBehind (opened row) (entry, row.length) := by
  simp [opened, List.zipIdx_append]

theorem mem_openedBehind (h : place ∈ openedBehind (opened row) (entry, row.length)) :
    place = row.length ∧ entry = some .opening ∨ place ∈ opened row := by
  rcases entry with _ | _ | _
  · exact .inr h
  · exact (List.mem_cons.1 h).imp (fun here => ⟨here, rfl⟩) id
  · exact .inr (List.mem_of_mem_tail h)

theorem getElem?_of_mem_opened (h : place ∈ opened row) : row[place]? = some (some .opening) := by
  induction row using List.reverseRecOn with
  | nil => cases h
  | append_singleton row entry ih =>
    rw [opened_concat] at h
    rcases mem_openedBehind h with ⟨rfl, rfl⟩ | before
    · simp
    · have opening := ih before
      rwa [List.getElem?_append_left (List.getElem?_eq_some_iff.1 opening).1]

theorem lt_of_mem_opened (h : place ∈ opened row) : place < row.length :=
  (List.getElem?_eq_some_iff.1 (getElem?_of_mem_opened h)).1

theorem lt_of_mem_opened_take (h : place ∈ opened (row.take start)) : place < start := by
  have := lt_of_mem_opened h
  rw [List.length_take] at this
  omega

/-- A bracket that opens inside of another one is found first. -/
theorem pairwise_opened (row : List (Option Bracket)) : (opened row).Pairwise (· > ·) := by
  induction row using List.reverseRecOn with
  | nil => exact .nil
  | append_singleton row entry ih =>
    rw [opened_concat]
    rcases entry with _ | _ | _
    · exact ih
    · exact List.pairwise_cons.2 ⟨fun _ hm => lt_of_mem_opened hm, ih⟩
    · exact ih.sublist (List.tail_sublist _)

theorem le_of_head?_opened (h : (opened row).head? = some first) (hm : place ∈ opened row) : place ≤ first := by
  obtain ⟨outer, ho⟩ := List.head?_eq_some_iff.1 h
  have sorted := pairwise_opened row
  rw [ho] at hm sorted
  rcases List.mem_cons.1 hm with rfl | hm
  · exact Nat.le_refl _
  · exact Nat.le_of_lt ((List.pairwise_cons.1 sorted).1 place hm)

/-- Only one of the open brackets is the innermost one. -/
theorem head?_opened_ne {outside : Nat} (h : (opened row)[outside + 1]? = some place) :
    (opened row).head? ≠ some place := by
  intro innermost
  obtain ⟨outer, ho⟩ := List.head?_eq_some_iff.1 innermost
  have sorted := pairwise_opened row
  rw [ho] at h sorted
  rw [List.getElem?_cons_succ] at h
  exact Nat.lt_irrefl _ ((List.pairwise_cons.1 sorted).1 place (List.mem_of_getElem? h))

/-- What is open behind a row has been open from its place on. -/
theorem mem_opened_take (h : place ∈ opened row) (hs : place < start) : place ∈ opened (row.take start) := by
  induction row using List.reverseRecOn with
  | nil => cases h
  | append_singleton row entry ih =>
    by_cases whole : row.length < start
    · rwa [List.take_of_length_le (by simpa using whole)]
    · rw [List.take_append_of_le_length (by omega)]
      rw [opened_concat] at h
      rcases mem_openedBehind h with ⟨rfl, -⟩ | before
      · exact absurd hs whole
      · exact ih before

/-! ## Pairs -/

theorem Pairs.lt (h : Pairs row first last) : first < last :=
  lt_of_mem_opened_take (List.mem_of_head? h.2)

theorem Pairs.lt_length (h : Pairs row first last) : last < row.length :=
  (List.getElem?_eq_some_iff.1 h.1).1

theorem Pairs.append (h : Pairs row first last) (rest : List (Option Bracket)) : Pairs (row ++ rest) first last := by
  have inside := h.lt_length
  refine ⟨by rw [List.getElem?_append_left inside, h.1], ?_⟩
  rw [List.take_append_of_le_length (Nat.le_of_lt inside), h.2]

/-- Behind the closing bracket of a pair the other one is not open any more. -/
theorem Pairs.notMem_opened_take (h : Pairs row first last) (hs : last < start) :
    first ∉ opened (row.take start) := by
  intro hm
  obtain ⟨outer, ho⟩ := List.head?_eq_some_iff.1 h.2
  have behind : opened (row.take (last + 1)) = outer := by
    rw [List.take_add_one, h.1, Option.toList_some, opened_concat, ho]
    rfl
  have still := mem_opened_take hm (Nat.lt_succ_of_lt h.lt)
  rw [List.take_take, Nat.min_eq_left (Nat.succ_le_of_lt hs), behind] at still
  have sorted := pairwise_opened (row.take last)
  rw [ho] at sorted
  exact Nat.lt_irrefl _ ((List.pairwise_cons.1 sorted).1 first still)

theorem Pairs.notMem_opened (h : Pairs row first last) : first ∉ opened row := by
  have := h.notMem_opened_take h.lt_length
  rwa [List.take_length] at this

/-- An opening bracket that is not open any more has been closed. -/
theorem exists_pairs (opening : row[first]? = some (some .opening)) (closed : first ∉ opened row) :
    ∃ last, Pairs row first last := by
  induction row using List.reverseRecOn with
  | nil => cases opening
  | append_singleton row entry ih =>
    rw [opened_concat] at closed
    by_cases new : first < row.length
    · rw [List.getElem?_append_left new] at opening
      by_cases before : first ∈ opened row
      · -- The last entry closes the bracket, which is then the innermost one.
        rcases entry with _ | _ | _
        · exact absurd before closed
        · exact absurd (List.mem_cons_of_mem _ before) closed
        · refine ⟨row.length, by simp, ?_⟩
          rw [List.take_left]
          cases ho : opened row with
          | nil => rw [ho] at before; cases before
          | cons innermost outer =>
            rw [ho] at before closed
            rcases List.mem_cons.1 before with rfl | outside
            · rfl
            · exact absurd outside closed
      · obtain ⟨last, pair⟩ := ih opening before
        exact ⟨last, pair.append [entry]⟩
    · rw [List.getElem?_append_right (by omega)] at opening
      have here : first - row.length = 0 := by
        have := (List.getElem?_eq_some_iff.1 opening).1
        simpa using this
      rw [here] at opening
      obtain rfl : entry = some .opening := Option.some.inj opening
      obtain rfl : first = row.length := by omega
      exact absurd List.mem_cons_self closed

/-- The brackets that stay open are the opening ones without a partner. -/
theorem mem_opened_iff : place ∈ opened row ↔ row[place]? = some (some .opening) ∧ ∀ last, ¬ Pairs row place last := by
  constructor
  · exact fun h => ⟨getElem?_of_mem_opened h, fun last pair => pair.notMem_opened h⟩
  · rintro ⟨opening, single⟩
    by_contra closed
    obtain ⟨last, pair⟩ := exists_pairs opening closed
    exact single last pair

/-! ## Places in no pair -/

/-- Where the innermost bracket is one that stays open, a place lies in no pair: the opening bracket of a pair around it
would be open there, and the innermost one where the pair closes. -/
theorem not_enclosed_of_head?_opened (still : first ∈ opened row)
    (innermost : (opened (row.take place)).head? = some first) : ¬ Enclosed row place := by
  rintro ⟨opening, before, closing, -, behind, pair⟩
  have early : first < place := lt_of_mem_opened_take (List.mem_of_head? innermost)
  have outside : first ≤ opening := le_of_head?_opened pair.2 (mem_opened_take still (by omega))
  have around : opening ∈ opened (row.take place) := by
    have := mem_opened_take (List.mem_of_head? pair.2) before
    rwa [List.take_take, Nat.min_eq_left (Nat.le_of_lt behind)] at this
  obtain rfl : opening = first := Nat.le_antisymm (le_of_head?_opened innermost around) outside
  exact pair.notMem_opened still

/-- A bracket that is open at a place, but not behind the row, encloses the place. -/
theorem enclosed_of_mem_opened_take (h : first ∈ opened (row.take place)) (closed : first ∉ opened row)
    (other : row[place]? = some none) : Enclosed row place := by
  have early : first < place := lt_of_mem_opened_take h
  have opening : row[first]? = some (some .opening) := by
    have := getElem?_of_mem_opened h
    rwa [List.getElem?_take_of_lt early] at this
  obtain ⟨last, pair⟩ := exists_pairs opening closed
  have behind : place ≤ last := by
    by_contra h'
    exact pair.notMem_opened_take (by omega) h
  have elsewhere : place ≠ last := by
    rintro rfl
    rw [pair.1] at other
    cases other
  exact ⟨first, early, last, pair.lt_length, by omega, pair⟩

/-- The places in the innermost bracket that stays open, but in no bracket inside of it, are those behind it that lie in
no pair. -/
theorem head?_opened_take_iff (innermost : (opened row).head? = some first) (other : row[place]? = some none) :
    (opened (row.take place)).head? = some first ↔ first < place ∧ ¬ Enclosed row place := by
  have still : first ∈ opened row := List.mem_of_head? innermost
  constructor
  · exact fun h => ⟨lt_of_mem_opened_take (List.mem_of_head? h), not_enclosed_of_head?_opened still h⟩
  · rintro ⟨before, free⟩
    have inside : first ∈ opened (row.take place) := mem_opened_take still before
    obtain ⟨bracket, outer, ho⟩ := List.exists_cons_of_ne_nil (List.ne_nil_of_mem inside)
    have here : (opened (row.take place)).head? = some bracket := by rw [ho, List.head?_cons]
    have open_ : bracket ∈ opened row := by
      by_contra closed
      exact free (enclosed_of_mem_opened_take (List.mem_of_head? here) closed other)
    have same : bracket = first := Nat.le_antisymm (le_of_head?_opened innermost open_) (le_of_head?_opened here inside)
    rw [here, same]

end Formula.Bracket
