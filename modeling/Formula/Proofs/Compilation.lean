import Formula.Compiled
import Formula.Proofs.Acceptance
import Formula.Proofs.Conversion
/-!
# Compiled functions and trees

An accepted definition has one tree of operators. It compiles to the listing of that tree (`compile_of_parses`), and
evaluating what is compiled gives the value of the tree (`evaluate_ofTree`). A definition that is rejected compiles too,
so neither step fails, whatever it is given.
-/

namespace Formula

/-! ## The tree of a definition -/

theorem tokensOf_of_parses {text : List Char} {lexemes tokens : List Token} {tree : Tree}
    (hc : Lexeme.Cuts text lexemes) (hp : Parses .additive lexemes tokens tree) : tokensOf text = .ok tokens :=
  tokensOf_eq_ok_iff_derives.2 ⟨lexemes, hc, hp.derives⟩

theorem exists_parses {text : List Char} {tokens : List Token} (h : tokensOf text = .ok tokens) :
    ∃ lexemes tree, Lexeme.Cuts text lexemes ∧ Parses .additive lexemes tokens tree := by
  obtain ⟨lexemes, hc, hd⟩ := tokensOf_eq_ok_iff_derives.1 h
  obtain ⟨tree, hp⟩ := hd.parses
  exact ⟨lexemes, tree, hc, hp⟩

/-- The grammar with precedences is unambiguous. -/
theorem Parses.unique {lexemes tokens tokens' : List Token} {tree tree' : Tree}
    (h : Parses .additive lexemes tokens tree) (h' : Parses .additive lexemes tokens' tree') : tree = tree' := by
  -- The lexemes determine the tokens, these the code, and the code the tree.
  obtain rfl := h.derives.unique h'.derives
  have hl : tree.postorder = tree'.postorder := by
    have := h.convert_eq.symm.trans h'.convert_eq
    exact Except.ok.inj this
  exact Tree.postorder_injective h.wellFormed h'.wellFormed hl

theorem Lexeme.Cuts.isDefined {text : List Char} {lexemes : List Token} (h : Lexeme.Cuts text lexemes)
    {leaf : Operand} (hm : .operand leaf ∈ lexemes) : leaf.IsDefined := by
  induction h with
  | nil => cases hm
  | blank _ _ ih => exact ih hm
  | lexeme reads _ ih =>
    rcases List.mem_cons.1 hm with rfl | hm
    · exact reads.isDefined
    · exact ih hm

/-! ## Compiling and evaluating -/

def Compiled.ofTree (definition : String) (tree : Tree) : Compiled :=
  { definition, code := tree.postorder }

theorem isValid_ofTree (definition : String) (tree : Tree) : (Compiled.ofTree definition tree).isValid := by
  have := tree.postorder_ne_nil
  simp [Compiled.isValid, Compiled.ofTree, this]

theorem compile_of_parses {definition : String} {lexemes tokens : List Token} {tree : Tree}
    (hc : Lexeme.Cuts definition.toList lexemes) (hp : Parses .additive lexemes tokens tree) :
    compile definition = ⟨.ok (.ofTree definition tree), [.accepted definition tokens.length]⟩ := by
  have ht : tokenize definition = .ok tokens := tokensOf_of_parses hc hp
  simp only [compile, ht, Code.ofTokens, hp.convert_eq]
  rfl

theorem compile_of_convert {definition : String} {tokens : List Token} {code : Code}
    (ht : tokenize definition = .ok tokens) (hc : Code.convert [] tokens = .ok code) :
    (compile definition).outcome = .ok { definition, code } := by
  simp only [compile, ht, Code.ofTokens, hc]
  rfl

theorem compile_of_error {definition : String} {rejection : Rejection} (h : tokenize definition = .error rejection) :
    compile definition =
      ⟨.ok { definition, rejection := some rejection },
        [.rejected definition rejection.position rejection.fault.reason]⟩ := by
  simp only [compile, h]

/-- The compiled form of a definition has the value of its tree, and no value where the variable has none. -/
theorem evaluate_ofTree {definition : String} {text : List Char} {lexemes tokens : List Token} {tree : Tree}
    (hc : Lexeme.Cuts text lexemes) (hp : Parses .additive lexemes tokens tree) (x : Float) :
    (Compiled.ofTree definition tree).evaluate x = pure (if x.isNaN then Number.undefined else tree.value x) := by
  have he : (Compiled.ofTree definition tree).evaluate x = Code.evaluate tree.postorder x :=
    if_pos (isValid_ofTree definition tree)
  by_cases hx : x.isNaN
  · rw [he, Code.evaluate, if_pos hx, if_pos hx]
  · have hrun : Code.run x [] tree.postorder = .ok (tree.value x) := by
      refine Tree.run_postorder_nil hp.wellFormed fun leaf hm => ?_
      exact hc.isDefined ((hp.operand_mem_iff leaf).1.1 hm) x (by simpa using hx)
    rw [he, Code.evaluate, if_neg hx, if_neg hx, hrun]

/-- Every definition compiles, and what it compiles to is the form of a tree or keeps the fault of the definition. -/
theorem compile_cases (definition : String) :
    (∃ lexemes tokens tree, Lexeme.Cuts definition.toList lexemes ∧ Parses .additive lexemes tokens tree ∧
      tokenize definition = .ok tokens ∧ (compile definition).outcome = .ok (.ofTree definition tree)) ∨
    ∃ rejection, tokenize definition = .error rejection ∧
      (compile definition).outcome = .ok { definition, rejection := some rejection } := by
  cases h : tokenize definition with
  | ok tokens =>
    obtain ⟨lexemes, tree, hc, hp⟩ := exists_parses h
    exact .inl ⟨lexemes, tokens, tree, hc, hp, rfl, by rw [compile_of_parses hc hp]⟩
  | error rejection => exact .inr ⟨rejection, rfl, by rw [compile_of_error h]⟩

/-- What a definition compiles to. -/
theorem compiled_cases {definition : String} {compiled : Compiled} (h : (compile definition).outcome = .ok compiled) :
    (∃ lexemes tokens tree, Lexeme.Cuts definition.toList lexemes ∧ Parses .additive lexemes tokens tree ∧
      compiled = .ofTree definition tree) ∨
    ∃ rejection, tokenize definition = .error rejection ∧ compiled = { definition, rejection := some rejection } := by
  rcases compile_cases definition with ⟨lexemes, tokens, tree, hc, hp, -, ho⟩ | ⟨rejection, ht, ho⟩
  · exact .inl ⟨lexemes, tokens, tree, hc, hp, Except.ok.inj (h.symm.trans ho)⟩
  · exact .inr ⟨rejection, ht, Except.ok.inj (h.symm.trans ho)⟩

theorem definition_of_compile {definition : String} {compiled : Compiled}
    (h : (compile definition).outcome = .ok compiled) : compiled.definition = definition := by
  rcases compiled_cases h with ⟨_, _, _, -, -, rfl⟩ | ⟨_, -, rfl⟩
  · rfl
  · rfl

theorem exists_compile (definition : String) : ∃ compiled, (compile definition).outcome = .ok compiled := by
  rcases compile_cases definition with ⟨_, _, _, -, -, -, h⟩ | ⟨_, -, h⟩
  · exact ⟨_, h⟩
  · exact ⟨_, h⟩

/-- An accepted definition has one tree, whose listing is its code, and evaluating it computes the value of the tree. -/
theorem evaluate_eq_value {definition : String} {tokens : List Token} (h : tokenize definition = .ok tokens) :
    ∃ lexemes tree compiled, Lexeme.Cuts definition.toList lexemes ∧ Parses .additive lexemes tokens tree ∧
      (∀ tokens' tree', Parses .additive lexemes tokens' tree' → tree' = tree) ∧
      (compile definition).outcome = .ok compiled ∧ compiled.isValid ∧ compiled.code = tree.postorder ∧
      (∀ operator, .operator operator ∈ compiled.code → operator.isGrouping = false) ∧
      ∀ x : Float, x.isNaN = false → (compiled.evaluate x).outcome = .ok (tree.value x) := by
  obtain ⟨lexemes, tree, hc, hp⟩ := exists_parses h
  refine ⟨lexemes, tree, .ofTree definition tree, hc, hp, fun _ _ hp' => hp'.unique hp,
    by rw [compile_of_parses hc hp], isValid_ofTree definition tree, rfl,
    fun operator hm => Tree.not_isGrouping_of_mem hp.wellFormed hm, fun x hx => ?_⟩
  rw [evaluate_ofTree hc hp, hx]
  rfl

/-- A sign binds tighter than a power: `-x^2` is the square of minus `x`. -/
theorem evaluate_signed_power :
    ∃ compiled, (compile "-x^2").outcome = .ok compiled ∧ ∀ x : Float, x.isNaN = false →
      (compiled.evaluate x).outcome = .ok (Kind.power.result [2, Kind.negate.result [x]]) := by
  have h : tokenize "-x^2" =
      .ok [Kind.negate.token, .operand .x, Kind.power.token, .operand (Lexeme.literal ['2'])] := by decide +kernel
  obtain ⟨lexemes, tree, compiled, hc, -, hu, ho, -, -, -, hv⟩ := evaluate_eq_value h
  have hcuts : Lexeme.Cuts "-x^2".toList
      [Kind.subtract.token, .operand .x, Kind.power.token, .operand (Lexeme.literal ['2'])] :=
    (Lexeme.cuts_cons_iff (by decide)).2 ⟨_, _, _, rfl, rfl,
      (Lexeme.cuts_cons_iff (by decide)).2 ⟨_, _, _, rfl, rfl,
        (Lexeme.cuts_cons_iff (by decide)).2 ⟨_, _, _, rfl, rfl,
          (Lexeme.cuts_cons_iff (by decide)).2 ⟨_, _, _, rfl, rfl, .nil⟩⟩⟩⟩
  obtain rfl := hc.unique hcuts
  have hbase : Parses .power [Kind.subtract.token, .operand .x] [Kind.negate.token, .operand .x] _ :=
    .tighter rfl (.sign (.operand .x))
  have htier : Kind.power.tier? = some .power := rfl
  have hpower := Parses.chain htier rfl hbase (.tighter rfl (.operand (Lexeme.literal ['2'])))
  obtain rfl := hu _ _ (.tighter rfl (.tighter rfl hpower))
  refine ⟨compiled, ho, fun x hx => ?_⟩
  rw [hv x hx]
  rfl

/-! ## No failure -/

namespace Compiled

/-- A valid function has code, and nothing is said against it. -/
structure FullyValid (compiled : Compiled) : Prop where
  isValid : compiled.isValid = true
  code : compiled.code ≠ []
  position : compiled.errorPosition = -1
  reason : compiled.errorReason = ""
  kind : compiled.errorKind? = none
  description : compiled.describe = ""

/-- An invalid function has no code, and a fault with a reason. -/
structure FullyInvalid (compiled : Compiled) : Prop where
  isValid : compiled.isValid = false
  code : compiled.code = []
  kind : compiled.errorKind?.isSome = true
  reason : compiled.errorReason ≠ ""

end Compiled

theorem fullyValid_ofTree (definition : String) (tree : Tree) : (Compiled.ofTree definition tree).FullyValid where
  isValid := isValid_ofTree definition tree
  code := tree.postorder_ne_nil
  position := rfl
  reason := rfl
  kind := rfl
  description := if_pos (isValid_ofTree definition tree)

theorem fullyInvalid_of_rejection (definition : String) (rejection : Rejection) :
    (Compiled.mk definition [] (some rejection)).FullyInvalid where
  isValid := rfl
  code := rfl
  kind := rfl
  reason := by
    change rejection.fault.reason ≠ ""
    cases rejection.fault <;> decide

/-- Whatever is given is compiled, to a function that is valid iff the definition is accepted and that is evaluated
everywhere. Nothing that matters is logged on the way, and where the function is invalid its value is undefined. -/
theorem compileGiven_never_fails (definition : Option String) :
    ∃ compiled, (compileGiven definition).outcome = .ok compiled ∧
      (compiled.FullyValid ∨ compiled.FullyInvalid) ∧
      (compiled.isValid ↔ ∃ tokens, tokenize (definition.getD "") = .ok tokens) ∧
      (∀ tokens, tokenize (definition.getD "") = .ok tokens → ∃ code, (Code.ofTokens tokens).outcome = .ok code) ∧
      ∀ x : Float, ∃ value, (compiled.evaluate x).outcome = .ok value ∧
        (compiled.evaluate x).log.atLeast .info = [] ∧ (compiled.isValid = false → value.isNaN) := by
  generalize hd : definition.getD "" = given
  have hgiven : compileGiven definition = compile given := by rw [compileGiven, hd]
  rw [hgiven]
  rcases compile_cases given with ⟨lexemes, tokens, tree, hc, hp, ht, ho⟩ | ⟨rejection, ht, ho⟩
  · have hv := isValid_ofTree given tree
    refine ⟨_, ho, .inl (fullyValid_ofTree given tree), ⟨fun _ => ⟨tokens, ht⟩, fun _ => hv⟩, fun tokens' ht' => ?_,
      fun x => ?_⟩
    · obtain rfl := Except.ok.inj (ht.symm.trans ht')
      exact ⟨tree.postorder, by rw [Code.ofTokens, hp.convert_eq]; rfl⟩
    · rw [evaluate_ofTree hc hp]
      exact ⟨_, rfl, rfl, fun hi => by rw [hv] at hi; cases hi⟩
  · have hi := fullyInvalid_of_rejection given rejection
    refine ⟨_, ho, .inr hi, ?_, fun tokens ht' => ?_,
      fun x => ⟨Number.undefined, rfl, rfl, fun _ => Number.isNaN_undefined⟩⟩
    · rw [hi.isValid, ht]
      simp
    · rw [ht] at ht'
      cases ht'

end Formula
