import Formula.Code.Machine
import Formula.Proofs.Grammar
import Formula.Proofs.Undefined
/-!
# Trees of operators

A tree has one value for each value of the variable, and one listing in postorder. The stack machine computes the
first from the second (`run_postorder`): a tree whose value is undefined ends the run at once, and any other pushes
its value. The listing determines the tree (`postorder_injective`).
-/

namespace Formula

/-- An operator applied to operands in the order of a stack. It is undefined where an operand is. -/
def Kind.result (kind : Kind) (operands : List Float) : Float :=
  if operands.any Float.isNaN then Number.undefined
  else
    match kind.operator.apply operands with
    | .ok value => value
    | .error _ => Number.undefined

/-- Operators over their operands, from left to right. -/
inductive Tree
  | leaf (operand : Operand)
  | unary (kind : Kind) (child : Tree)
  | binary (kind : Kind) (left right : Tree)

namespace Tree

def postorder : Tree → Code
  | leaf operand => [.operand operand]
  | unary kind child => child.postorder ++ [kind.token]
  | binary kind left right => left.postorder ++ right.postorder ++ [kind.token]

/-- The value of a tree where the variable is `x`. -/
def value (x : Float) : Tree → Float
  | leaf operand => operand.valueAt x
  | unary kind child => kind.result [child.value x]
  | binary kind left right => kind.result [right.value x, left.value x]

/-- Operators have as many operands as they take, and none of them groups. -/
def WellFormed : Tree → Prop
  | leaf _ => True
  | unary kind child => kind.isGrouping = false ∧ kind.arity = 1 ∧ child.WellFormed
  | binary kind left right => kind.isGrouping = false ∧ kind.arity = 2 ∧ left.WellFormed ∧ right.WellFormed

/-! ## Applying an operator -/

/-- An operator that does not group can be applied to as many operands as it takes. -/
theorem apply_eq_ok {operator : Operator} (hg : operator.isGrouping = false) {operands : List Float}
    (hl : operands.length = operator.arity) : ∃ value, operator.apply operands = .ok value := by
  obtain ⟨operation, ho⟩ : ∃ operation, operator.kind.operation? = some operation := by
    rw [Operator.isGrouping] at hg
    cases hk : operator.kind <;> rw [hk] at hg <;> first | exact ⟨_, rfl⟩ | cases hg
  refine ⟨operation.run operands, ?_⟩
  rw [Operator.apply, ho]
  exact if_pos hl

theorem result_undefined {kind : Kind} {operands : List Float} {operand : Float} (hm : operand ∈ operands)
    (hn : operand.isNaN) : kind.result operands = Number.undefined := by
  rw [Kind.result, if_pos (List.any_eq_true.2 ⟨operand, hm, hn⟩)]

theorem result_of_apply {kind : Kind} {operands : List Float} {value : Float}
    (hn : ∀ operand ∈ operands, ¬ operand.isNaN) (ha : kind.operator.apply operands = .ok value) :
    kind.result operands = value := by
  have : ¬ operands.any Float.isNaN := fun h => by
    obtain ⟨operand, hm, ho⟩ := List.any_eq_true.1 h
    exact hn operand hm ho
  rw [Kind.result, if_neg this, ha]

/-- An operator over values that are numbers ends the run if its result is undefined, and pushes it otherwise. -/
theorem run_operator {kind : Kind} (hg : kind.isGrouping = false) {operands : List Float}
    (hl : operands.length = kind.arity) (hn : ∀ operand ∈ operands, ¬ operand.isNaN) (x : Float)
    (stack : List Float) (rest : Code) :
    Code.run x (operands ++ stack) (kind.token :: rest) =
      if (kind.result operands).isNaN then .ok Number.undefined
      else Code.run x (kind.result operands :: stack) rest := by
  have hoperator : kind.operator.isGrouping = false := hg
  obtain ⟨value, ha⟩ := apply_eq_ok hoperator hl
  have ht : (operands ++ stack).take kind.operator.arity = operands := List.take_left' hl
  have hd : (operands ++ stack).drop kind.operator.arity = stack := List.drop_left' hl
  have henough : ¬ (operands ++ stack).length < kind.operator.arity := by
    rw [List.length_append, hl]
    exact Nat.not_lt.2 (Nat.le_add_right ..)
  rw [Kind.token, Code.run, if_neg henough, ht, hd, ha, result_of_apply hn ha]

/-! ## The machine on a listing -/

/-- The listing of a tree ends the run if the value of the tree is undefined, and pushes the value otherwise. -/
theorem run_postorder {tree : Tree} (hw : tree.WellFormed) {x : Float}
    (hd : ∀ operand, .operand operand ∈ tree.postorder → (operand.valueAt x).isNaN = false) (stack : List Float)
    (rest : Code) :
    Code.run x stack (tree.postorder ++ rest) =
      if (tree.value x).isNaN then .ok Number.undefined else Code.run x (tree.value x :: stack) rest := by
  induction tree generalizing stack rest with
  | leaf operand =>
    rw [value, hd operand (by simp [postorder])]
    rfl
  | unary kind child ih =>
    obtain ⟨hg, ha, hc⟩ := hw
    have hdc := fun operand hm => hd operand (List.mem_append_left _ hm)
    rw [postorder, List.append_assoc, ih hc hdc, value]
    by_cases hn : (child.value x).isNaN
    · rw [if_pos hn, result_undefined (by simp) hn, if_pos Number.isNaN_undefined]
    · rw [if_neg hn]
      have hl : [child.value x].length = kind.arity := ha.symm
      exact run_operator hg hl (List.forall_mem_singleton.2 hn) x stack rest
  | binary kind left right ihl ihr =>
    obtain ⟨hg, ha, hl, hr⟩ := hw
    have hdl := fun operand hm => hd operand (List.mem_append_left _ (List.mem_append_left _ hm))
    have hdr := fun operand hm => hd operand (List.mem_append_left _ (List.mem_append_right _ hm))
    rw [postorder, List.append_assoc, List.append_assoc, ihl hl hdl, value]
    -- The run ends with the first operand that is undefined; the right one is then never looked at.
    by_cases hnl : (left.value x).isNaN
    · rw [if_pos hnl, result_undefined (by simp) hnl, if_pos Number.isNaN_undefined]
    · rw [if_neg hnl, ihr hr hdr]
      by_cases hnr : (right.value x).isNaN
      · rw [if_pos hnr, result_undefined (by simp) hnr, if_pos Number.isNaN_undefined]
      · rw [if_neg hnr]
        have hl : [right.value x, left.value x].length = kind.arity := ha.symm
        have hn : ∀ operand ∈ [right.value x, left.value x], ¬ operand.isNaN :=
          List.forall_mem_cons.2 ⟨hnr, List.forall_mem_singleton.2 hnl⟩
        exact run_operator hg hl hn x stack rest

theorem run_postorder_nil {tree : Tree} (hw : tree.WellFormed) {x : Float}
    (hd : ∀ operand, .operand operand ∈ tree.postorder → (operand.valueAt x).isNaN = false) :
    Code.run x [] tree.postorder = .ok (tree.value x) := by
  have := run_postorder hw hd [] []
  rw [List.append_nil] at this
  rw [this]
  by_cases hn : (tree.value x).isNaN
  · rw [if_pos hn, Number.eq_undefined hn]
  · rw [if_neg hn, Code.run]

/-! ## The tree of a listing -/

/-- Builds trees from code as the machine builds values. -/
def assemble (stack : List Tree) : Code → List Tree
  | [] => stack
  | .operand operand :: rest => assemble (.leaf operand :: stack) rest
  | .operator operator :: rest =>
    match operator.arity, stack with
    | 1, child :: below => assemble (.unary operator.kind child :: below) rest
    | 2, right :: left :: below => assemble (.binary operator.kind left right :: below) rest
    | _, _ => assemble stack rest

theorem assemble_unary {kind : Kind} (ha : kind.arity = 1) (child : Tree) (below : List Tree) (rest : Code) :
    assemble (child :: below) (kind.token :: rest) = assemble (.unary kind child :: below) rest := by
  have : kind.operator.arity = 1 := ha
  simp only [Kind.token, assemble, this]
  rfl

theorem assemble_binary {kind : Kind} (ha : kind.arity = 2) (left right : Tree) (below : List Tree) (rest : Code) :
    assemble (right :: left :: below) (kind.token :: rest) = assemble (.binary kind left right :: below) rest := by
  have : kind.operator.arity = 2 := ha
  simp only [Kind.token, assemble, this]
  rfl

theorem assemble_postorder {tree : Tree} (hw : tree.WellFormed) (stack : List Tree) (rest : Code) :
    assemble stack (tree.postorder ++ rest) = assemble (tree :: stack) rest := by
  induction tree generalizing stack rest with
  | leaf operand => rfl
  | unary kind child ih =>
    obtain ⟨-, ha, hc⟩ := hw
    rw [postorder, List.append_assoc, ih hc]
    exact assemble_unary ha child stack rest
  | binary kind left right ihl ihr =>
    obtain ⟨-, ha, hl, hr⟩ := hw
    rw [postorder, List.append_assoc, List.append_assoc, ihl hl, ihr hr]
    exact assemble_binary ha left right stack rest

/-- Trees with one listing are the same. -/
theorem postorder_injective {tree tree' : Tree} (hw : tree.WellFormed) (hw' : tree'.WellFormed)
    (h : tree.postorder = tree'.postorder) : tree = tree' := by
  have hl := assemble_postorder hw [] []
  have hl' := assemble_postorder hw' [] []
  rw [h, hl'] at hl
  exact (List.cons.inj hl).1.symm

/-- The operators of a listing are as definitions use them, and none of them groups. -/
theorem exists_kind_of_mem {tree : Tree} (hw : tree.WellFormed) {operator : Operator}
    (h : .operator operator ∈ tree.postorder) : ∃ kind : Kind, kind.isGrouping = false ∧ operator = kind.operator := by
  induction tree with
  | leaf => simp [postorder] at h
  | unary kind child ih =>
    rcases List.mem_append.1 h with h | h
    · exact ih hw.2.2 h
    · cases List.mem_singleton.1 h
      exact ⟨kind, hw.1, rfl⟩
  | binary kind left right ihl ihr =>
    rcases List.mem_append.1 h with h | h
    · rcases List.mem_append.1 h with h | h
      · exact ihl hw.2.2.1 h
      · exact ihr hw.2.2.2 h
    · cases List.mem_singleton.1 h
      exact ⟨kind, hw.1, rfl⟩

theorem not_isGrouping_of_mem {tree : Tree} (hw : tree.WellFormed) {operator : Operator}
    (h : .operator operator ∈ tree.postorder) : operator.isGrouping = false := by
  obtain ⟨kind, hg, rfl⟩ := exists_kind_of_mem hw h
  exact hg

theorem postorder_ne_nil (tree : Tree) : tree.postorder ≠ [] := by
  cases tree <;> simp [postorder]

end Tree

end Formula
