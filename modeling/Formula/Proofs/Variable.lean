import Formula.Proofs.Compilation
/-!
# The variable

Code looks at the variable where an operand stands for it, and nowhere else. With the value written there instead, it
is evaluated to the same end at every other point (`evaluate_fixed`), and code in which no operand stands for the
variable has one value, or one failure, for all points.
-/

namespace Formula

/-! ## A fixed variable -/

/-- The operand of the same spelling that has the value `x`, in the place of the variable. -/
def Operand.fixed (x : Float) (leaf : Operand) : Operand :=
  if leaf.isVariable then { leaf with value := some x } else leaf

def Token.fixed (x : Float) : Token → Token
  | .operand leaf => .operand (leaf.fixed x)
  | .operator node => .operator node

/-- Code with a value in all places of the variable. -/
def Code.fixed (x : Float) (code : Code) : Code :=
  code.map (Token.fixed x)

theorem Operand.spelling_fixed (x : Float) (leaf : Operand) : (leaf.fixed x).spelling = leaf.spelling := by
  unfold fixed
  split <;> rfl

theorem Operand.valueAt_fixed (x y : Float) (leaf : Operand) : (leaf.fixed x).valueAt y = leaf.valueAt x := by
  rcases leaf with ⟨spelling, _ | value⟩ <;> rfl

theorem Token.spelling_fixed (x : Float) (token : Token) : (token.fixed x).spelling = token.spelling := by
  cases token with
  | operand leaf => exact leaf.spelling_fixed x
  | operator node => rfl

theorem Token.fixed_eq_self {token : Token} (h : token.isVariable = false) (x : Float) : token.fixed x = token := by
  cases token with
  | operand leaf =>
    have constant : ¬ leaf.isVariable := by simpa [isVariable] using h
    exact congrArg Token.operand (if_neg constant)
  | operator node => rfl

namespace Code

variable {x y : Float}

theorem spellings_fixed (x : Float) (code : Code) : Token.spellings (code.fixed x) = Token.spellings code := by
  rw [Token.spellings, Token.spellings, fixed, List.map_map]
  exact congrArg _ (List.map_congr_left fun token _ => token.spelling_fixed x)

theorem fixed_eq_self {code : Code} (h : ∀ token ∈ code, token.isVariable = false) (x : Float) :
    code.fixed x = code :=
  (List.map_congr_left fun token hm => token.fixed_eq_self (h token hm) x).trans code.map_id

/-! ## Evaluation -/

/-- The machine comes to the same end on the same stack, token by token. -/
theorem run_fixed (x y : Float) (stack : List Float) (code : Code) :
    run y stack (code.fixed x) = run x stack code := by
  induction code generalizing stack with
  | nil => rfl
  | cons token rest ih =>
    rw [fixed, List.map_cons, ← fixed]
    cases token with
    | operand leaf =>
      rw [Token.fixed, run, run, leaf.valueAt_fixed]
      exact ih _
    | operator node =>
      rw [Token.fixed, run, run]
      by_cases missing : stack.length < node.arity
      · rw [if_pos missing, if_pos missing]
      · rw [if_neg missing, if_neg missing]
        cases node.apply (stack.take node.arity) with
        | error error => rfl
        | ok value =>
          dsimp only
          rw [ih]

/-- Values, failures and records are the same, and so are the spellings that a record shows. -/
theorem evaluate_fixed (hx : x.isNaN = false) (hy : y.isNaN = false) (code : Code) :
    (code.fixed x).evaluate y = code.evaluate x := by
  rw [evaluate, evaluate, hx, hy, run_fixed, spellings_fixed]

theorem evaluate_of_constant (hx : x.isNaN = false) (hy : y.isNaN = false) {code : Code}
    (h : ∀ token ∈ code, token.isVariable = false) : code.evaluate x = code.evaluate y := by
  rw [← evaluate_fixed hx hy code, fixed_eq_self h]

end Code

/-! ## Definitions -/

/-- What a definition without the variable compiles to has no variable. -/
theorem isVariable_eq_false_of_compile {definition : String} {compiled : Compiled}
    (compiles : (compile definition).outcome = .ok compiled)
    (h : ∀ tokens, tokenize definition = .ok tokens → ∀ token ∈ tokens, token.isVariable = false) :
    ∀ token ∈ compiled.code, token.isVariable = false := by
  rcases compiled_cases compiles with ⟨lexemes, tokens, tree, hc, hp, rfl⟩ | ⟨_, -, rfl⟩
  · intro token hm
    cases token with
    | operand leaf => exact h tokens (tokensOf_of_parses hc hp) _ ((hp.operand_mem_iff leaf).2.1 hm)
    | operator node => rfl
  · intro token hm
    cases hm

/-- Of the variable an evaluation sees its value at the operands that stand for it. So code and definitions without
the variable come to the same end everywhere. -/
theorem evaluate_sees_variable {x y : Float} (hx : x.isNaN = false) (hy : y.isNaN = false) :
    (∀ code : Code, code.evaluate x = Code.evaluate (code.fixed x) y) ∧
    (∀ code : Code, (∀ token ∈ code, token.isVariable = false) → code.evaluate x = code.evaluate y) ∧
    ∀ definition compiled, (compile definition).outcome = .ok compiled →
      (∀ tokens, tokenize definition = .ok tokens → ∀ token ∈ tokens, token.isVariable = false) →
      compiled.evaluate x = compiled.evaluate y := by
  refine ⟨fun code => (Code.evaluate_fixed hx hy code).symm, fun code => Code.evaluate_of_constant hx hy,
    fun definition compiled compiles h => ?_⟩
  have constant := isVariable_eq_false_of_compile compiles h
  rw [Compiled.evaluate, Compiled.evaluate, Code.evaluate_of_constant hx hy constant]

/-- A sum that lacks an operand fails alike, and so does its record. -/
theorem evaluate_sees_variable_failing :
    (1 : Float).isNaN = false ∧ (2 : Float).isNaN = false ∧
      Code.evaluate [.operand ⟨"x", some 1⟩, Kind.add.token] 2 =
        ⟨.error (.missingOperands "+"), [.missingOperands "+"]⟩ := by
  have hx : (1 : Float).isNaN = false := by decide
  have hy : (2 : Float).isNaN = false := by decide
  have same := (evaluate_sees_variable hx hy).1 [.operand .x, Kind.add.token]
  exact ⟨hx, hy, same.symm.trans rfl⟩

end Formula
