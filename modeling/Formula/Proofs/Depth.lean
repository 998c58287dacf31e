import Formula.Proofs.Tree
/-!
# The depth of the stack

How many values are on the stack of the machine at a place of its code does not depend on the values: `Code.depth`
counts them from the code alone. An operator that finds too few of them and a token that groups are at fault
(`Code.Faulty`), and so is code that does not leave one value. `evaluate_by_depth` says what each fault does to an
evaluation, unless a result before it is undefined, which ends the evaluation first.
-/

namespace Formula.Code

/-! ## Faults of code -/

/-- By how many values a token makes the stack longer. -/
def growth : Token → Int
  | .operand _ => 1
  | .operator node => 1 - node.arity

/-- The number of values that code leaves on the stack, as far as its operators find their operands. -/
def depth (code : Code) : Int :=
  (code.map growth).sum

/-- At this place there is an operator whose operands are not there, or a token that groups and finds one. -/
def Faulty (code : Code) (place : Nat) : Prop :=
  ∃ node, code[place]? = some (.operator node) ∧
    (depth (code.take place) < node.arity ∨ node.isGrouping ∧ 1 ≤ depth (code.take place))

def FirstFault (code : Code) (place : Nat) : Prop :=
  Faulty code place ∧ ∀ before < place, ¬ Faulty code before

/-- Operators take as many operands as their kinds do. -/
def Regular (code : Code) : Prop :=
  ∀ node, .operator node ∈ code → node.arity = node.kind.arity

theorem depth_append (code code' : Code) : depth (code ++ code') = depth code + depth code' := by
  simp [depth]

@[simp] theorem depth_cons (token : Token) (code : Code) : depth (token :: code) = growth token + depth code := by
  simp [depth]

@[simp] theorem depth_concat (code : Code) (token : Token) : depth (code ++ [token]) = depth code + growth token := by
  simp [depth]

/-- The listing of a tree leaves the value of the tree. -/
theorem depth_postorder {tree : Tree} (hw : tree.WellFormed) : depth tree.postorder = 1 := by
  induction tree with
  | leaf => rfl
  | unary kind child ih =>
    obtain ⟨-, ha, hc⟩ := hw
    have taken : growth kind.token = 1 - 1 := congrArg (1 - Int.ofNat ·) ha
    rw [Tree.postorder, depth_concat, ih hc, taken]
    rfl
  | binary kind left right ihl ihr =>
    obtain ⟨-, ha, hl, hr⟩ := hw
    have taken : growth kind.token = 1 - 2 := congrArg (1 - Int.ofNat ·) ha
    rw [Tree.postorder, depth_concat, depth_append, ihl hl, ihr hr, taken]
    rfl

/-! ## The values on the stack -/

/-- The stack after a token, whether or not its result is undefined. -/
def push (x : Float) (stack : List Float) : Token → List Float
  | .operand leaf => leaf.valueAt x :: stack
  | .operator node =>
    match node.apply (stack.take node.arity) with
    | .ok value => value :: stack.drop node.arity
    | .error _ => stack.drop node.arity

/-- The stack after code that is worked on to its end. -/
def stackAfter (x : Float) (code : Code) : List Float :=
  code.foldl (push x) []

/-- At this place there is an operator whose result is undefined. -/
def YieldsUndefined (x : Float) (code : Code) (place : Nat) : Prop :=
  ∃ node value, code[place]? = some (.operator node) ∧
    node.apply ((stackAfter x (code.take place)).take node.arity) = .ok value ∧ value.isNaN

@[simp] theorem stackAfter_concat (x : Float) (code : Code) (token : Token) :
    stackAfter x (code ++ [token]) = push x (stackAfter x code) token := by
  simp [stackAfter]

/-! ## One token -/

theorem arity_of_isGrouping {node : Operator} (hr : node.arity = node.kind.arity) (hg : node.isGrouping) :
    node.arity = 1 := by
  rw [Operator.isGrouping] at hg
  rw [hr]
  cases hk : node.kind <;> rw [hk] at hg <;> first | rfl | cases hg

theorem apply_of_isGrouping {node : Operator} (hg : node.isGrouping) (operands : List Float) :
    node.apply operands = .error (.notEvaluable node.spelling) := by
  have ho : node.kind.operation? = none := by
    rw [Operator.isGrouping] at hg
    cases hk : node.kind <;> rw [hk] at hg <;> first | rfl | cases hg
  rw [Operator.apply, ho]

/-- An operator that is not at fault has a result for the values on the stack, and takes these away. -/
theorem exists_apply {node : Operator} (hr : node.arity = node.kind.arity) {stack : List Float}
    (enough : ¬ stack.length < node.arity) (evaluable : ¬ (node.isGrouping ∧ 1 ≤ stack.length)) :
    ∃ value, node.apply (stack.take node.arity) = .ok value := by
  have hg : node.isGrouping = false := by
    by_contra hg
    have hg : node.isGrouping := by simpa using hg
    have := arity_of_isGrouping hr hg
    exact evaluable ⟨hg, by omega⟩
  refine Tree.apply_eq_ok hg ?_
  rw [List.length_take]
  omega

theorem run_nil_eq_error {stack : List Float} (h : stack.length ≠ 1) (x : Float) :
    run x stack [] = .error (.leftover stack.length) := by
  match stack with
  | [] | _ :: _ :: _ => rfl
  | [_] => exact absurd rfl h

theorem run_operator_eq {x : Float} {stack : List Float} {node : Operator} {value : Float}
    (enough : ¬ stack.length < node.arity) (ha : node.apply (stack.take node.arity) = .ok value) (rest : Code) :
    run x stack (.operator node :: rest) =
      if value.isNaN then .ok Number.undefined else run x (value :: stack.drop node.arity) rest := by
  rw [run, if_neg enough, ha]

/-! ## Code up to a place -/

section Prefix

variable {code : Code} (hr : code.Regular)

include hr

/-- Before the first fault the stack is as long as the depth says, and the machine comes to the place with it as long
as no result is undefined. -/
theorem reaches {place : Nat} (hp : place ≤ code.length) (sound : ∀ before < place, ¬ Faulty code before) (x : Float) :
    ((stackAfter x (code.take place)).length : Int) = depth (code.take place) ∧
      ((∀ before < place, ¬ YieldsUndefined x code before) →
        run x [] code = run x (stackAfter x (code.take place)) (code.drop place)) := by
  induction place with
  | zero => exact ⟨rfl, fun _ => rfl⟩
  | succ place ih =>
    obtain ⟨length, run_eq⟩ := ih (by omega) fun before hb => sound before (by omega)
    have hlt : place < code.length := hp
    have hdrop := List.drop_eq_getElem_cons hlt
    have fine := sound place (Nat.lt_succ_self place)
    rw [List.take_succ_eq_append_getElem hlt, stackAfter_concat, depth_concat]
    cases ht : code[place] with
    | operand leaf =>
      refine ⟨by simp [push, growth, length], fun defined => ?_⟩
      rw [run_eq fun before hb => defined before (by omega), hdrop, ht]
      rfl
    | operator node =>
      have hget : code[place]? = some (.operator node) := by rw [List.getElem?_eq_getElem hlt, ht]
      have hnode := hr node (ht ▸ List.getElem_mem hlt)
      have enough : ¬ (stackAfter x (code.take place)).length < node.arity := fun h =>
        fine ⟨node, hget, .inl (by omega)⟩
      have evaluable : ¬ (node.isGrouping ∧ 1 ≤ (stackAfter x (code.take place)).length) := fun ⟨hg, h⟩ =>
        fine ⟨node, hget, .inr ⟨hg, by omega⟩⟩
      obtain ⟨value, ha⟩ := exists_apply hnode enough evaluable
      refine ⟨?_, fun defined => ?_⟩
      · simp only [push, ha, growth, List.length_cons, List.length_drop]
        omega
      · have hv : ¬ value.isNaN := fun hv => defined place (Nat.lt_succ_self place) ⟨node, value, hget, ha, hv⟩
        rw [run_eq fun before hb => defined before (by omega), hdrop, ht, run_operator_eq enough ha, if_neg hv]
        simp only [push, ha]

/-- A result that is undefined before the first fault ends the run. -/
theorem run_of_yieldsUndefined {place : Nat} (hp : place ≤ code.length)
    (sound : ∀ before < place, ¬ Faulty code before) {x : Float}
    (undefined : ∃ before < place, YieldsUndefined x code before) : run x [] code = .ok Number.undefined := by
  classical
  -- The first of these results is the one that the machine comes to.
  obtain ⟨hlt, node, value, hget, ha, hv⟩ := Nat.find_spec undefined
  have first : ∀ before < Nat.find undefined, ¬ YieldsUndefined x code before := fun before hb hy =>
    Nat.find_min undefined hb ⟨by omega, hy⟩
  have hfirst : Nat.find undefined ≤ code.length := by omega
  obtain ⟨length, run_eq⟩ := reaches hr hfirst (fun before hb => sound before (by omega)) x
  have enough : ¬ (stackAfter x (code.take (Nat.find undefined))).length < node.arity := fun h =>
    sound _ hlt ⟨node, hget, .inl (by omega)⟩
  obtain ⟨hbound, hnode⟩ := List.getElem?_eq_some_iff.1 hget
  rw [run_eq first, List.drop_eq_getElem_cons hbound, hnode, run_operator_eq enough ha, if_pos hv]

/-- With all results before it defined, the first fault is an operator without its operands or a token that groups. -/
theorem run_of_faulty {place : Nat} {node : Operator} (hget : code[place]? = some (.operator node))
    (sound : ∀ before < place, ¬ Faulty code before) {x : Float}
    (defined : ∀ before < place, ¬ YieldsUndefined x code before) :
    (depth (code.take place) < node.arity → run x [] code = .error (.missingOperands node.spelling)) ∧
    (node.isGrouping → 1 ≤ depth (code.take place) →
      run x [] code = .error (.apply (.notEvaluable node.spelling))) := by
  obtain ⟨hbound, hnode⟩ := List.getElem?_eq_some_iff.1 hget
  obtain ⟨length, run_eq⟩ := reaches hr (Nat.le_of_lt hbound) sound x
  rw [run_eq defined, List.drop_eq_getElem_cons hbound, hnode]
  constructor
  · intro missing
    rw [run, if_pos (by omega)]
  · intro hg found
    have harity := arity_of_isGrouping (hr node (hnode ▸ List.getElem_mem hbound)) hg
    rw [run, if_neg (by omega), apply_of_isGrouping hg]

/-- Without a fault and with all results defined, what is left on the stack decides. -/
theorem run_of_sound (sound : ∀ place, ¬ Faulty code place) {x : Float}
    (defined : ∀ place, ¬ YieldsUndefined x code place) :
    (depth code = 1 → ∃ value, run x [] code = .ok value) ∧
    (depth code ≠ 1 → ∃ count : Nat, (count : Int) = depth code ∧ run x [] code = .error (.leftover count)) := by
  obtain ⟨length, run_eq⟩ := reaches hr (Nat.le_refl _) (fun place _ => sound place) x
  rw [List.take_length] at length run_eq
  rw [run_eq fun place _ => defined place, List.drop_length]
  constructor
  · intro single
    obtain ⟨value, hv⟩ := List.length_eq_one_iff.1 (show (stackAfter x code).length = 1 by omega)
    exact ⟨value, by rw [hv, run]⟩
  · intro other
    exact ⟨_, length, run_nil_eq_error (by omega) x⟩

end Prefix

/-! ## Evaluation -/

/-- The evaluation of code ends with an error that has a message, behind records of some levels. -/
structure Fails (code : Code) (x : Float) (error : EvaluationError) (message : String)
    (levels : List Level) : Prop where
  outcome : (code.evaluate x).outcome = .error error
  message : error.message = message
  levels : (code.evaluate x).log.map Event.level = levels

theorem evaluate_of_isNaN (code : Code) {x : Float} (hx : x.isNaN) : code.evaluate x = ⟨.ok Number.undefined, []⟩ :=
  if_pos hx

theorem YieldsUndefined.lt_length {x : Float} {code : Code} {place : Nat} (h : YieldsUndefined x code place) :
    place < code.length := by
  obtain ⟨node, value, hget, -⟩ := h
  exact (List.getElem?_eq_some_iff.1 hget).1

section Evaluation

variable {code : Code} {x : Float} (hx : x.isNaN = false)

include hx

theorem evaluate_of_run {value : Float} (h : run x [] code = .ok value) : code.evaluate x = ⟨.ok value, []⟩ := by
  rw [evaluate, hx, h]
  rfl

theorem fails_missingOperands {spelling : String} (h : run x [] code = .error (.missingOperands spelling)) :
    Fails code x (.missingOperands spelling) s!"Not enough operands for '{spelling}'" [.error] := by
  constructor <;> first | rfl | rw [evaluate, hx, h]; rfl

theorem fails_apply {spelling : String} (h : run x [] code = .error (.apply (.notEvaluable spelling))) :
    Fails code x (.apply (.notEvaluable spelling)) s!"Operator '{spelling}' cannot be evaluated" [] := by
  constructor <;> first | rfl | rw [evaluate, hx, h]; rfl

theorem fails_leftover {count : Nat} (h : run x [] code = .error (.leftover count)) :
    Fails code x (.leftover count) s!"Unexpected number of operands left after computation: {count}"
      [.error, .error] := by
  constructor <;> first | rfl | rw [evaluate, hx, h]; rfl

/-- Without a fault, a result that is undefined is the value of the code, wherever it is. -/
theorem evaluate_of_yieldsUndefined (hr : code.Regular) (sound : ∀ place, ¬ Faulty code place)
    (undefined : ∃ place, YieldsUndefined x code place) : code.evaluate x = ⟨.ok Number.undefined, []⟩ := by
  obtain ⟨place, undefined⟩ := undefined
  refine evaluate_of_run hx (run_of_yieldsUndefined hr (Nat.le_refl _) (fun place _ => sound place) ?_)
  exact ⟨place, undefined.lt_length, undefined⟩

end Evaluation

theorem evaluate_of_sound {code : Code} (hr : code.Regular) (sound : ∀ place, ¬ Faulty code place)
    (single : depth code = 1) (x : Float) : ∃ value, code.evaluate x = ⟨.ok value, []⟩ := by
  by_cases hx : x.isNaN
  · exact ⟨_, evaluate_of_isNaN code hx⟩
  · have hx : x.isNaN = false := by simpa using hx
    by_cases undefined : ∃ place, YieldsUndefined x code place
    · exact ⟨_, evaluate_of_yieldsUndefined hx hr sound undefined⟩
    · obtain ⟨value, hv⟩ := (run_of_sound hr sound (not_exists.1 undefined)).1 single
      exact ⟨value, evaluate_of_run hx hv⟩

/-- Code without a fault that leaves one value has a value everywhere, and nothing is logged. Any other code has the
undefined value where a result before its first fault is undefined, or any result if it has no fault. Otherwise it
fails: at an operator without its operands, at a token that groups, or at its end with the number of values left. -/
theorem evaluate_by_depth {code : Code} (hr : code.Regular) :
    ((∀ place, ¬ Faulty code place) → depth code = 1 → ∀ x, ∃ value, code.evaluate x = ⟨.ok value, []⟩) ∧
    ∀ x : Float, x.isNaN = false →
      (∀ place node, FirstFault code place → code[place]? = some (.operator node) →
        ((∃ before < place, YieldsUndefined x code before) → code.evaluate x = ⟨.ok Number.undefined, []⟩) ∧
        ((∀ before < place, ¬ YieldsUndefined x code before) →
          (depth (code.take place) < node.arity →
            Fails code x (.missingOperands node.spelling) s!"Not enough operands for '{node.spelling}'" [.error]) ∧
          (node.isGrouping → 1 ≤ depth (code.take place) →
            Fails code x (.apply (.notEvaluable node.spelling)) s!"Operator '{node.spelling}' cannot be evaluated"
              []))) ∧
      ((∀ place, ¬ Faulty code place) → depth code ≠ 1 →
        ((∃ place, YieldsUndefined x code place) → code.evaluate x = ⟨.ok Number.undefined, []⟩) ∧
        ((∀ place, ¬ YieldsUndefined x code place) → ∃ count : Nat, (count : Int) = depth code ∧
          Fails code x (.leftover count) s!"Unexpected number of operands left after computation: {count}"
            [.error, .error])) := by
  refine ⟨evaluate_of_sound hr, fun x hx => ⟨fun place node ⟨_, sound⟩ hget => ⟨fun undefined => ?_, fun defined => ?_⟩,
    fun sound other => ⟨evaluate_of_yieldsUndefined hx hr sound, fun defined => ?_⟩⟩⟩
  · have hlt := (List.getElem?_eq_some_iff.1 hget).1
    exact evaluate_of_run hx (run_of_yieldsUndefined hr (Nat.le_of_lt hlt) sound undefined)
  · obtain ⟨missing, grouping⟩ := run_of_faulty hr hget sound defined
    exact ⟨fun hd => fails_missingOperands hx (missing hd), fun hg hd => fails_apply hx (grouping hg hd)⟩
  · obtain ⟨count, hcount, hrun⟩ := (run_of_sound hr sound defined).2 other
    exact ⟨count, hcount, fails_leftover hx hrun⟩

/-- A sum that lacks its left operand, behind a quotient: it is never looked at where the quotient is undefined. -/
theorem evaluate_by_depth_quotient :
    evaluate [.operand .x, .operand .x, Kind.divide.token, Kind.add.token] 0 = ⟨.ok Number.undefined, []⟩ ∧
      Fails [.operand .x, .operand .x, Kind.divide.token, Kind.add.token] 1 (.missingOperands "+")
        "Not enough operands for '+'" [.error] := by
  have regular : Regular [.operand .x, .operand .x, Kind.divide.token, Kind.add.token] := by
    intro node hm
    have : node = Kind.divide.operator ∨ node = Kind.add.operator := by simpa [Kind.token] using hm
    rcases this with rfl | rfl <;> rfl
  have fault : FirstFault [.operand .x, .operand .x, Kind.divide.token, Kind.add.token] 3 := by
    refine ⟨⟨Kind.add.operator, rfl, .inl (by decide)⟩, ?_⟩
    rintro (_ | _ | _ | before) hb ⟨node, hget, hf⟩
    · cases hget
    · cases hget
    · cases hget
      revert hf
      decide
    · omega
  have reports := (evaluate_by_depth regular).2
  refine ⟨((reports 0 (by decide)).1 3 _ fault rfl).1 ⟨2, by decide, Kind.divide.operator, 0 / 0, rfl, by decide⟩, ?_⟩
  refine (((reports 1 (by decide)).1 3 _ fault rfl).2 ?_).1 (by decide)
  rintro (_ | _ | _ | before) hb ⟨node, value, hget, ha, hv⟩
  · cases hget
  · cases hget
  · cases hget
    cases ha
    revert hv
    decide
  · omega

end Formula.Code
