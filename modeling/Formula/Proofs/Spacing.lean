import Formula.Proofs.Compilation
/-!
# Blanks between lexemes

The spellings of the tokens of a definition are all that its text says. Without its blanks and with small letters the
text is their concatenation, and whatever blanks are put between them, the tokens stay the same (`tokenize_spread`). Two
lexemes never run into each other when the blanks between them go, since the grammar lets no two of them stand next to
each other unless one is a bracket, a comma or an operator (`Derives.parted`).
-/

namespace Formula

/-! ## Neighbours -/

/-- What is written as a single character that is no letter. -/
def Token.isSymbol : Token → Bool
  | .operand _ => false
  | .operator node => node.kind.isSymbol

/-- Of two tokens next to each other one is a symbol. -/
def Parted (tokens : List Token) : Prop :=
  tokens.IsChain fun first second => first.isSymbol ∨ second.isSymbol

theorem parted_singleton (token : Token) : Parted [token] :=
  List.isChain_singleton token

/-- Rows with a symbol between them are parted if both are. -/
theorem Parted.join {kind : Kind} (symbol : kind.isSymbol) {front back : List Token} (hf : Parted front)
    (hb : Parted back) : Parted (front ++ kind.token :: back) := by
  refine List.isChain_append.2 ⟨hf, List.isChain_cons.2 ⟨fun _ _ => .inl symbol, hb⟩, ?_⟩
  rintro _ _ _ ⟨⟩
  exact .inr symbol

theorem Kind.isSymbol_of_isInfix {kind : Kind} (h : kind.isInfix) : kind.isSymbol := by
  rw [isSymbol, h, Bool.true_or]

theorem Derives.parted {phrase : Phrase} {lexemes tokens : List Token} (h : Derives phrase lexemes tokens) :
    Parted lexemes := by
  have enclosed : ∀ {inner : List Token}, Parted inner →
      Parted (Kind.leftParen.token :: (inner ++ [Kind.rightParen.token])) := by
    intro inner hi
    have closed : Parted (inner ++ [Kind.rightParen.token]) := hi.join rfl List.isChain_nil
    exact Parted.join rfl List.isChain_nil closed
  induction h with
  | operand leaf => exact parted_singleton _
  | group _ ih => exact enclosed ih
  | @call function _ _ _ _ ih =>
    -- The bracket behind the name of a function parts it from the arguments.
    exact List.isChain_cons_cons.2 ⟨.inr rfl, enclosed ih⟩
  | bare _ ih | single _ ih | one _ ih => exact ih
  | signed _ ih => exact Parted.join rfl List.isChain_nil ih
  | chain isInfix _ _ ihf ihl => exact ihf.join (Kind.isSymbol_of_isInfix isInfix) ihl
  | more _ _ ihf ihl => exact ihf.join rfl ihl

/-- A sign is spelled as a subtraction is. -/
theorem Derives.spellings {phrase : Phrase} {lexemes tokens : List Token} (h : Derives phrase lexemes tokens) :
    lexemes.map Token.spelling = tokens.map Token.spelling := by
  induction h with
  | operand => rfl
  | bare _ ih | single _ ih | one _ ih => exact ih
  | group _ ih | call _ _ ih => simp [ih]
  | signed _ ih =>
    rw [List.map_cons, List.map_cons, ih]
    rfl
  | chain _ _ _ ihf ihl | more _ _ ihf ihl => simp [ihf, ihl]

/-! ## Spellings with blanks around them -/

/-- Spellings one after the other, with blanks before, between and behind them. -/
def spread (gap : Nat → List Char) : List String → List Char
  | [] => gap 0
  | spelling :: rest => gap 0 ++ (spelling.toList ++ spread (fun place => gap (place + 1)) rest)

/-- A text in which spellings stand one after the other, in letters of either case, with blanks around them. -/
inductive Spaced : List String → List Char → Prop
  | nil {blanks : List Char} (blank : blanks.all Text.isBlank) : Spaced [] blanks
  | cons {blanks chars rest : List Char} {spelling : String} {spellings : List String}
      (blank : blanks.all Text.isBlank) (letters : chars.map Char.toLower = spelling.toList.map Char.toLower)
      (spaced : Spaced spellings rest) : Spaced (spelling :: spellings) (blanks ++ (chars ++ rest))

theorem spaced_spread {gap : Nat → List Char} (blank : ∀ place, (gap place).all Text.isBlank)
    (spellings : List String) : Spaced spellings (spread gap spellings) := by
  induction spellings generalizing gap with
  | nil => exact .nil (blank 0)
  | cons spelling rest ih => exact .cons (blank 0) rfl (ih fun place => blank (place + 1))

/-! ## Characters that are no letters -/

theorem toLower_eq_self {c : Char} (h : ¬ c.isAlpha) : c.toLower = c :=
  toLower_of_not_isUpper fun upper => h (by simp [Char.isAlpha, upper])

theorem map_toLower_eq_self {chars : List Char} (h : ∀ c ∈ chars, ¬ c.isAlpha) : chars.map Char.toLower = chars :=
  (List.map_congr_left fun c hc => toLower_eq_self (h c hc)).trans (List.map_id chars)

/-- Where no letters are spelled, there is one way to write them. -/
theorem eq_of_map_toLower {chars chars' : List Char} (h : ∀ c ∈ chars, ¬ c.isAlpha)
    (letters : chars'.map Char.toLower = chars) : chars' = chars := by
  rw [← letters]
  refine (map_toLower_eq_self fun c hc hl => ?_).symm
  have := h c.toLower (letters ▸ List.mem_map_of_mem hc)
  rw [apply_toLower fun _ hd => hd] at this
  exact this hl

namespace Lexeme

/-- No digit or point is a letter. -/
theorem not_isAlpha_of_numerals {run : List Char} (numerals : run.all isNumeral) : ∀ c ∈ run, ¬ c.isAlpha := by
  intro c hc ha
  have := List.all_eq_true.1 numerals c hc
  rw [isNumeral_of_isAlpha c ha] at this
  cases this

theorem breaks_of_isBlank {c : Char} (h : Text.isBlank c) : breaks c := by
  have numeral : isNumeral c = false := by
    by_contra hn
    rw [isBlank_of_isNumeral (by simpa using hn)] at h
    cases h
  simp only [breaks, numeral, Bool.not_false, Bool.true_and, List.all_eq_true]
  intro token member
  by_contra hm
  have hm : c.toLower ∈ token.spelling.toList := List.mem_of_mem_tail (by simpa using hm)
  have reads : Reads token.spelling.toList [] token := reads_spelling member rfl
  have := reads.not_blank.2 _ hm
  rw [apply_toLower isBlank_of_isAlpha, h] at this
  cases this

/-! ## One lexeme in another place -/

theorem spelling_literal (run : List Char) : (Token.operand (literal run)).spelling.toList = run :=
  String.toList_ofList

/-- A lexeme is written as its token is spelled, in letters of either case. -/
theorem Reads.letters {chars rest : List Char} {token : Token} (h : Reads chars rest token) :
    chars.map Char.toLower = token.spelling.toList := by
  cases h with
  | number numerals _ _ _ =>
    rw [spelling_literal]
    exact map_toLower_eq_self (not_isAlpha_of_numerals numerals)
  | spelled _ spelling _ => exact spelling

/-- Lexemes are spelled in small letters. -/
theorem Reads.toLower_spelling {chars rest : List Char} {token : Token} (h : Reads chars rest token) :
    token.spelling.toList.map Char.toLower = token.spelling.toList := by
  cases h with
  | number numerals _ _ _ =>
    rw [spelling_literal]
    exact map_toLower_eq_self (not_isAlpha_of_numerals numerals)
  | spelled member _ _ => exact Token.toLower_spelling member

theorem Reads.exists_symbol {chars rest : List Char} {token : Token} (h : Reads chars rest token)
    (symbol : token.isSymbol) : ∃ kind : Kind, kind.isSymbol ∧ token = kind.token := by
  cases h with
  | number => cases symbol
  | spelled member _ _ =>
    simp only [Token.catalog, List.mem_append, List.mem_cons, List.not_mem_nil, or_false, List.mem_map] at member
    rcases member with (rfl | rfl) | ⟨kind, -, rfl⟩
    · cases symbol
    · cases symbol
    · exact ⟨kind, symbol, rfl⟩

theorem not_isAlpha_of_isSymbol {kind : Kind} (symbol : kind.isSymbol) : ∀ c ∈ kind.spelling.toList, ¬ c.isAlpha := by
  have single : kind.spelling.toList.any Char.isAlpha = false := by
    revert symbol
    cases kind <;> decide
  exact List.any_eq_false.1 single

/-- A lexeme is read again from another way to write it, if it is a symbol or stands before a character that breaks. -/
theorem Reads.respell {chars rest chars' rest' : List Char} {token : Token} (h : Reads chars rest token)
    (letters : chars'.map Char.toLower = token.spelling.toList)
    (parted : token.isSymbol ∨ rest'.head?.all breaks) : Reads chars' rest' token := by
  rcases parted with symbol | hrest
  · obtain ⟨kind, symbol, rfl⟩ := h.exists_symbol symbol
    rw [eq_of_map_toLower (not_isAlpha_of_isSymbol symbol) letters]
    exact reads_symbol kind symbol rest'
  · have hne : chars' ≠ [] := by
      rintro rfl
      exact h.not_blank.1 (List.map_eq_nil_iff.1 (h.letters.trans letters.symm))
    cases h with
    | number numerals _ points digits =>
      rw [spelling_literal] at letters
      obtain rfl := eq_of_map_toLower (not_isAlpha_of_numerals numerals) letters
      exact .number numerals (not_isNumeral_of_breaks hrest) points digits
    | spelled member _ _ =>
      refine .spelled member letters fun other hother hbegins => ?_
      have hl : chars'.length = token.spelling.length := by
        rw [← String.length_toList, ← letters, List.length_map]
      rw [← hl]
      exact length_le_of_begins hother hne hrest hbegins

/-! ## All lexemes in other places -/

theorem Cuts.blanks {blanks text : List Char} {tokens : List Token} (blank : blanks.all Text.isBlank)
    (h : Cuts text tokens) : Cuts (blanks ++ text) tokens := by
  induction blanks with
  | nil => exact h
  | cons c blanks ih =>
    rw [List.all_cons, Bool.and_eq_true] at blank
    exact .blank blank.1 (ih blank.2)

theorem Cuts.exists_reads {text : List Char} {tokens : List Token} (h : Cuts text tokens) :
    ∀ token ∈ tokens, ∃ chars rest, Reads chars rest token := by
  induction h with
  | nil => simp
  | blank _ _ ih => exact ih
  | lexeme reads _ ih => exact List.forall_mem_cons.2 ⟨⟨_, _, reads⟩, ih⟩

theorem breaks_of_blanks {blanks rest : List Char} (blank : blanks.all Text.isBlank) (hrest : rest.head?.all breaks) :
    (blanks ++ rest).head?.all breaks := by
  cases blanks with
  | nil => exact hrest
  | cons c blanks =>
    rw [List.all_cons, Bool.and_eq_true] at blank
    exact breaks_of_isBlank blank.1

/-- A text that begins with no lexeme, or with a symbol behind blanks, begins with a character that breaks. -/
theorem breaks_of_spaced {tokens : List Token} {text : List Char} (h : Spaced (tokens.map Token.spelling) text)
    (legible : ∀ token ∈ tokens, ∃ chars rest, Reads chars rest token)
    (symbol : ∀ token ∈ tokens.head?, token.isSymbol) : text.head?.all breaks := by
  cases tokens with
  | nil =>
    cases h with
    | nil blank => simpa using @breaks_of_blanks _ [] blank rfl
  | cons token tokens =>
    obtain ⟨_, _, reads⟩ := legible token List.mem_cons_self
    obtain ⟨kind, isSymbol, rfl⟩ := reads.exists_symbol (symbol token rfl)
    cases h with
    | @cons _ chars rest _ _ blank letters _ =>
      rw [reads.toLower_spelling] at letters
      rw [eq_of_map_toLower (not_isAlpha_of_isSymbol isSymbol) letters]
      exact breaks_of_blanks blank (breaks_symbol kind isSymbol rest)

/-- Lexemes of which one of two neighbours is a symbol are cut again from every text in which they are spelled. -/
theorem Cuts.of_spaced {tokens : List Token} (legible : ∀ token ∈ tokens, ∃ chars rest, Reads chars rest token)
    (parted : Parted tokens) {text : List Char} (h : Spaced (tokens.map Token.spelling) text) : Cuts text tokens := by
  induction tokens generalizing text with
  | nil =>
    cases h with
    | nil blank => simpa using Cuts.nil.blanks blank
  | cons token tokens ih =>
    obtain ⟨⟨_, _, reads⟩, legible⟩ := List.forall_mem_cons.1 legible
    obtain ⟨next, parted⟩ := List.isChain_cons.1 parted
    cases h with
    | @cons _ _ rest _ _ blank letters spaced =>
      rw [reads.toLower_spelling] at letters
      have place : token.isSymbol ∨ rest.head?.all breaks := by
        by_cases symbol : token.isSymbol
        · exact .inl symbol
        · exact .inr (breaks_of_spaced spaced legible fun token hm => (next token hm).resolve_left symbol)
      exact (Cuts.lexeme (reads.respell letters place) (ih legible parted spaced)).blanks blank

/-- Without its blanks a text has the same lexemes one after the other. -/
theorem Cuts.spaced_filter {text : List Char} {tokens : List Token} (h : Cuts text tokens) :
    Spaced (tokens.map Token.spelling) (text.filter (!Text.isBlank ·)) ∧
      (text.filter (!Text.isBlank ·)).map Char.toLower = tokens.flatMap (·.spelling.toList) := by
  induction h with
  | nil => exact ⟨.nil rfl, rfl⟩
  | blank blank _ ih => simpa [blank] using ih
  | @lexeme chars rest token tokens reads _ ih =>
    have hchars : chars.filter (!Text.isBlank ·) = chars :=
      List.filter_eq_self.2 fun c hc => by simp [reads.not_blank.2 c hc]
    rw [List.filter_append, hchars, List.map_append, reads.letters, ih.2, List.flatMap_cons]
    have letters : chars.map Char.toLower = token.spelling.toList.map Char.toLower :=
      reads.letters.trans reads.toLower_spelling.symm
    exact ⟨@Spaced.cons [] _ _ _ _ rfl letters ih.1, rfl⟩

end Lexeme

/-! ## Blanks put in and taken away -/

/-- A text in which the spellings of an accepted definition stand with any blanks around them is accepted, with the same
tokens. -/
theorem tokensOf_of_spaced {text text' : List Char} {tokens : List Token} (h : tokensOf text = .ok tokens)
    (hs : Spaced (tokens.map Token.spelling) text') : tokensOf text' = .ok tokens := by
  obtain ⟨lexemes, hc, hd⟩ := tokensOf_eq_ok_iff_derives.1 h
  rw [← hd.spellings] at hs
  exact tokensOf_eq_ok_iff_derives.2 ⟨lexemes, .of_spaced hc.exists_reads hd.parted hs, hd⟩

def CompilesTo (definition : String) (code : Code) : Prop :=
  ∃ compiled, (compile definition).outcome = .ok compiled ∧ compiled.isValid ∧ compiled.code = code

/-- The tokens of a definition determine its code. -/
theorem exists_compilesTo {tokens : List Token} {text : List Char} (h : tokensOf text = .ok tokens) :
    ∃ code, ∀ definition, tokenize definition = .ok tokens → CompilesTo definition code := by
  obtain ⟨_, tree, _, hp⟩ := exists_parses h
  refine ⟨tree.postorder, fun definition hd => ?_⟩
  obtain ⟨lexemes, tree', hc, hp'⟩ := exists_parses hd
  have same : tree'.postorder = tree.postorder := Except.ok.inj (hp'.convert_eq.symm.trans hp.convert_eq)
  exact ⟨_, by rw [compile_of_parses hc hp'], isValid_ofTree definition tree', same⟩

/-- The spellings of the tokens of a definition are its text without blanks and in small letters. Whatever blanks stand
before, between and behind these spellings, the tokens and the code are the same, and so they are if all blanks of the
definition are deleted. -/
theorem tokenize_spread {definition : String} {tokens : List Token} (h : tokenize definition = .ok tokens) :
    String.join (tokens.map Token.spelling) =
        String.ofList ((definition.toList.filter (!Text.isBlank ·)).map Char.toLower) ∧
      ∃ code, CompilesTo definition code ∧
        (∀ gap : Nat → List Char, (∀ place, (gap place).all Text.isBlank) →
          tokenize (String.ofList (spread gap (tokens.map Token.spelling))) = .ok tokens ∧
            CompilesTo (String.ofList (spread gap (tokens.map Token.spelling))) code) ∧
        tokenize (String.ofList (definition.toList.filter (!Text.isBlank ·))) = .ok tokens ∧
          CompilesTo (String.ofList (definition.toList.filter (!Text.isBlank ·))) code := by
  obtain ⟨lexemes, hc, hd⟩ := tokensOf_eq_ok_iff_derives.1 h
  obtain ⟨spaced, letters⟩ := hc.spaced_filter
  rw [hd.spellings] at spaced
  obtain ⟨code, same⟩ := exists_compilesTo h
  have again : ∀ {text : List Char}, Spaced (tokens.map Token.spelling) text →
      tokenize (String.ofList text) = .ok tokens := by
    intro text hs
    rw [tokenize, String.toList_ofList]
    exact tokensOf_of_spaced h hs
  refine ⟨?_, code, same _ h, fun gap blank => ?_, again spaced, same _ (again spaced)⟩
  · rw [← String.toList_inj, String.toList_join, String.toList_ofList, letters, ← hd.spellings, List.flatMap_map]
  · have ht := again (spaced_spread blank (tokens.map Token.spelling))
    exact ⟨ht, same _ ht⟩

/-- The name of a function, a number and a sign stay apart from what stands next to them once the blanks are gone. -/
theorem tokenize_spread_logarithm : ∃ code, CompilesTo " Log1P ( 2.5 * X )- - x" code ∧
    CompilesTo "Log1P(2.5*X)--x" code ∧ CompilesTo "log1p\t(\t2.5\t*\tx\t)\t-\t-\tx\t" code := by
  have h : tokenize " Log1P ( 2.5 * X )- - x" =
      .ok [Kind.log1p.token, Kind.leftParen.token, .operand (Lexeme.literal ['2', '.', '5']), Kind.multiply.token,
        .operand .x, Kind.rightParen.token, Kind.subtract.token, Kind.negate.token, .operand .x] := by decide +kernel
  obtain ⟨-, code, hcode, hspread, -, hdeleted⟩ := tokenize_spread h
  refine ⟨code, hcode, ?_, ?_⟩
  · rwa [show String.ofList _ = "Log1P(2.5*X)--x" by decide +kernel] at hdeleted
  · have htabs := (hspread (fun place => if place = 0 then [] else ['\t']) fun place => by split <;> decide).2
    rwa [show String.ofList _ = "log1p\t(\t2.5\t*\tx\t)\t-\t-\tx\t" by decide +kernel] at htabs

end Formula
