import Formula.Definition.Lexeme
import Mathlib
/-!
# Cutting a text into lexemes

`Cuts` says what the tokens of a text are without saying how they are found: blanks are skipped, digits and points
form numbers as long as they can, and anything else is the longest spelling of the catalog. `read_eq_ok_iff` shows
that the reader finds exactly those lexemes, and `Reads.splice` that a lexeme does not depend on what follows a
character that continues none.
-/

namespace Formula

/-! ## The longest spelling -/

namespace Token

theorem begins_iff {spelling : String} {text : List Char} :
    begins spelling text = true ↔ (text.take spelling.length).map Char.toLower = spelling.toList := by
  simp [begins]

/-- A text that begins with a spelling does so too when it goes on. -/
theorem begins_append {spelling : String} {text : List Char} (h : begins spelling text) (rest : List Char) :
    begins spelling (text ++ rest) := by
  rw [begins_iff] at h ⊢
  have inside : spelling.length ≤ text.length := by
    have := congrArg List.length h
    simp only [List.length_map, List.length_take, String.length_toList] at this
    omega
  rwa [List.take_append_of_le_length inside]

theorem byLength_sorted : byLength.Pairwise fun token other => other.spelling.length ≤ token.spelling.length := by
  decide

theorem eq_of_spelling_eq {token other : Token} (ht : token ∈ catalog) (ho : other ∈ catalog)
    (h : token.spelling = other.spelling) : token = other := by
  have hn : (catalog.map spelling).Nodup := by decide
  exact List.inj_on_of_nodup_map hn ht ho h

/-- The catalog is spelled in small letters. -/
theorem toLower_spelling {token : Token} (member : token ∈ catalog) :
    token.spelling.toList.map Char.toLower = token.spelling.toList := by
  have all : ∀ token ∈ catalog, token.spelling.toList.map Char.toLower = token.spelling.toList := by decide
  exact all token member

theorem length_spelling_ne_zero {token : Token} (member : token ∈ catalog) : token.spelling.length ≠ 0 := by
  have all : ∀ token ∈ catalog, token.spelling.length ≠ 0 := by decide
  exact all token member

theorem spelling_eq_of_begins {spelling other : String} {text : List Char} (h : begins spelling text)
    (ho : begins other text) (hl : spelling.length = other.length) : spelling = other := by
  rw [begins_iff] at h ho
  rw [hl, ho] at h
  exact String.toList_injective h.symm

/-- The token with which a text begins has the longest spelling that fits. -/
theorem first?_eq_some_iff {text : List Char} {token : Token} :
    first? text = some token ↔ token ∈ catalog ∧ begins token.spelling text ∧
      ∀ other ∈ catalog, begins other.spelling text → other.spelling.length ≤ token.spelling.length := by
  have longest : ∀ {token : Token}, first? text = some token →
      ∀ other ∈ catalog, begins other.spelling text → other.spelling.length ≤ token.spelling.length := by
    intro token h other hother hbegins
    -- Spellings are tried by length, so those after the one that is found are no longer.
    obtain ⟨-, before, after, hsplit, hbefore⟩ := List.find?_eq_some_iff_append.1 h
    have hsorted := hsplit ▸ byLength_sorted
    rw [← mem_byLength, hsplit] at hother
    rcases List.mem_append.1 hother with hm | hm
    · simpa [hbegins] using hbefore other hm
    · rcases List.mem_cons.1 hm with rfl | hm
      · exact Nat.le_refl _
      · exact (List.pairwise_cons.1 (List.pairwise_append.1 hsorted).2.1).1 other hm
  constructor
  · intro h
    exact ⟨mem_byLength.1 (List.mem_of_find?_eq_some h), by simpa using List.find?_some h, longest h⟩
  · rintro ⟨hmem, hbegins, hlongest⟩
    cases hfound : first? text with
    | none =>
      have := List.find?_eq_none.1 hfound token (mem_byLength.2 hmem)
      exact absurd hbegins this
    | some found =>
      have hf : begins found.spelling text := by simpa using List.find?_some hfound
      have hm := mem_byLength.1 (List.mem_of_find?_eq_some hfound)
      have hl : found.spelling.length = token.spelling.length :=
        Nat.le_antisymm (hlongest found hm hf) (longest hfound token hmem hbegins)
      rw [eq_of_spelling_eq hm hmem (spelling_eq_of_begins hf hbegins hl)]

theorem first?_eq_none_iff {text : List Char} :
    first? text = none ↔ ∀ token ∈ catalog, ¬ begins token.spelling text := by
  simp only [first?, List.find?_eq_none, mem_byLength]

end Token

/-! ## Letters of either case -/

theorem isAlpha_toLower {c : Char} (h : c.isUpper) : c.toLower.isAlpha := by
  simp only [Char.isUpper, ge_iff_le, decide_eq_true_eq, UInt32.le_iff_toNat_le] at h
  simp only [Char.toLower, ge_iff_le, UInt32.le_iff_toNat_le, h, and_self, ↓reduceDIte, Char.isAlpha, Char.isUpper,
    Char.isLower, UInt32.toNat_add]
  simp at h ⊢
  omega

theorem toLower_of_not_isUpper {c : Char} (h : ¬ c.isUpper) : c.toLower = c := by
  simp only [Char.isUpper, decide_eq_true_eq] at h
  simp only [Char.toLower, dif_neg h]

/-- What is the same for all letters does not change with the case of a letter. -/
theorem apply_toLower {β : Type} {f : Char → β} {b : β} (h : ∀ c : Char, c.isAlpha → f c = b) (c : Char) :
    f c.toLower = f c := by
  by_cases hc : c.isUpper
  · rw [h _ (isAlpha_toLower hc), h c (by simp [Char.isAlpha, hc])]
  · rw [toLower_of_not_isUpper hc]

theorem isBlank_of_isAlpha (c : Char) (h : c.isAlpha) : Text.isBlank c = false := by
  simp [Char.isAlpha, Char.isUpper, Char.isLower, UInt32.le_iff_toNat_le] at h
  simp [Text.isBlank, Text.blankRanges]
  omega

theorem isNumeral_of_isAlpha (c : Char) (h : c.isAlpha) : Lexeme.isNumeral c = false := by
  simp [Char.isAlpha, Char.isUpper, Char.isLower, UInt32.le_iff_toNat_le] at h
  simp [Lexeme.isNumeral, Char.isDigit, UInt32.le_iff_toNat_le]
  refine ⟨?_, by omega⟩
  rintro rfl
  simp at h

/-! ## The lexemes of a text -/

namespace Lexeme

/-- The operand that digits and points stand for. -/
def literal (run : List Char) : Operand :=
  ⟨String.ofList run, some (Number.ofDecimal (run.takeWhile Char.isDigit) ((run.dropWhile Char.isDigit).drop 1) 0)⟩

/-- The first lexeme of `chars ++ rest` is written `chars`, and its token is `token`. -/
inductive Reads : List Char → List Char → Token → Prop
  /-- Digits and points, at most one point and at least one digit, up to a character of another kind. -/
  | number {run rest : List Char} (numerals : run.all isNumeral) (maximal : rest.head?.all (!isNumeral ·))
      (points : run.count '.' ≤ 1) (digits : run.any Char.isDigit) : Reads run rest (.operand (literal run))
  /-- The longest spelling of the catalog that fits, in letters of either case. -/
  | spelled {chars rest : List Char} {token : Token} (member : token ∈ Token.catalog)
      (spelling : chars.map Char.toLower = token.spelling.toList)
      (longest : ∀ other ∈ Token.catalog, Token.begins other.spelling (chars ++ rest) →
        other.spelling.length ≤ token.spelling.length) : Reads chars rest token

/-- The tokens of a text, cut from left to right. -/
inductive Cuts : List Char → List Token → Prop
  | nil : Cuts [] []
  | blank {c : Char} {rest : List Char} {tokens : List Token} (blank : Text.isBlank c) (cuts : Cuts rest tokens) :
      Cuts (c :: rest) tokens
  | lexeme {chars rest : List Char} {token : Token} {tokens : List Token} (reads : Reads chars rest token)
      (cuts : Cuts rest tokens) : Cuts (chars ++ rest) (token :: tokens)

/-! ## The reader -/

theorem isBlank_of_isNumeral {c : Char} (h : isNumeral c) : Text.isBlank c = false := by
  simp only [isNumeral, Bool.or_eq_true, decide_eq_true_eq] at h
  rcases h with rfl | h
  · decide
  · simp [Char.isDigit, UInt32.le_iff_toNat_le] at h
    simp [Text.isBlank, Text.blankRanges]
    omega

theorem map_eq_of_spelling {β : Type} {f : Char → β} {b : β} (h : ∀ c : Char, c.isAlpha → f c = b)
    {chars : List Char} {spelling : String} (hs : chars.map Char.toLower = spelling.toList) :
    chars.map f = spelling.toList.map f := by
  rw [← hs, List.map_map]
  exact List.map_congr_left fun c _ => (apply_toLower h c).symm

theorem Reads.not_blank {chars rest : List Char} {token : Token} (h : Reads chars rest token) :
    chars ≠ [] ∧ ∀ c ∈ chars, Text.isBlank c = false := by
  cases h with
  | number numerals _ _ digits =>
    refine ⟨by rintro rfl; simp at digits, fun c hc => ?_⟩
    exact isBlank_of_isNumeral (List.all_eq_true.1 numerals c hc)
  | spelled member spelling _ =>
    have hcat : ∀ token ∈ Token.catalog, token.spelling.toList ≠ [] ∧
        ∀ b ∈ token.spelling.toList.map Text.isBlank, b = false := by decide
    obtain ⟨hne, hall⟩ := hcat token member
    refine ⟨by rintro rfl; exact hne spelling.symm, fun c hc => hall _ ?_⟩
    rw [← map_eq_of_spelling isBlank_of_isAlpha spelling]
    exact List.mem_map_of_mem hc

theorem number_eq_ok_iff {run : List Char} {operand : Operand} :
    number run = .ok operand ↔ run.count '.' ≤ 1 ∧ run.any Char.isDigit ∧ operand = literal run := by
  unfold number
  split
  · next h => simp only [reduceCtorEq, false_iff]; omega
  · next h =>
    split
    · next hd => simp only [reduceCtorEq, false_iff]; simp_all
    · next hd =>
      simp only [Except.ok.injEq, literal]
      constructor
      · rintro rfl
        exact ⟨by omega, by simpa using hd, rfl⟩
      · rintro ⟨-, -, rfl⟩
        rfl

theorem isNumeral_head {c : Char} {chars : List Char} {token : Token} (member : token ∈ Token.catalog)
    (spelling : (c :: chars).map Char.toLower = token.spelling.toList) : isNumeral c = false := by
  have hcat : ∀ token ∈ Token.catalog, (token.spelling.toList.map isNumeral).head? ≠ some true := by decide
  have := hcat token member
  rw [← map_eq_of_spelling isNumeral_of_isAlpha spelling] at this
  simpa using this

/-- Digits and points are read as far as they go. -/
theorem read_numerals {c : Char} {chars rest : List Char} (numerals : (c :: chars).all isNumeral)
    (maximal : rest.head?.all (!isNumeral ·)) :
    read c (chars ++ rest) = (number (c :: chars)).map fun operand => (.operand operand, chars.length) := by
  simp only [List.all_cons, Bool.and_eq_true] at numerals
  have hmore : (chars ++ rest).takeWhile isNumeral = chars := by
    rw [List.takeWhile_append_of_pos (by simpa using numerals.2)]
    cases rest <;> simp_all
  simp only [read, numerals.1, if_true, hmore]

theorem read_of_reads {c : Char} {chars rest : List Char} {token : Token} (h : Reads (c :: chars) rest token) :
    read c (chars ++ rest) = .ok (token, chars.length) := by
  cases h with
  | number numerals maximal points digits =>
    rw [read_numerals numerals maximal, number_eq_ok_iff.2 ⟨points, digits, rfl⟩]
    rfl
  | spelled member spelling longest =>
    have hl : (c :: chars).length = token.spelling.length := by
      rw [← String.length_toList, ← spelling, List.length_map]
    have hfirst : Token.first? (c :: (chars ++ rest)) = some token := by
      refine Token.first?_eq_some_iff.2 ⟨member, ?_, longest⟩
      rw [Token.begins_iff, ← hl, ← List.cons_append, List.take_left', spelling]
      rfl
    simp only [read, isNumeral_head member spelling, Bool.false_eq_true, if_false, hfirst, ← hl]
    rfl

theorem not_isNumeral_head_dropWhile (text : List Char) :
    (text.dropWhile isNumeral).head?.all (!isNumeral ·) := by
  have := List.head?_dropWhile_not isNumeral text
  cases hd : (text.dropWhile isNumeral).head? <;> simp_all

theorem reads_of_read {c : Char} {text : List Char} {token : Token} {more : Nat}
    (h : read c text = .ok (token, more)) :
    ∃ chars rest, text = chars ++ rest ∧ more = chars.length ∧ Reads (c :: chars) rest token := by
  by_cases hc : isNumeral c
  · simp only [read, hc, if_true] at h
    cases hn : number (c :: text.takeWhile isNumeral) with
    | error fault => rw [hn] at h; cases h
    | ok operand =>
      rw [hn] at h
      cases h
      obtain ⟨points, digits, rfl⟩ := number_eq_ok_iff.1 hn
      refine ⟨_, text.dropWhile isNumeral, List.takeWhile_append_dropWhile.symm, rfl,
        .number ?_ (not_isNumeral_head_dropWhile text) points digits⟩
      simp [hc, List.all_takeWhile]
  · simp only [read, hc] at h
    cases hfirst : Token.first? (c :: text) with
    | none => rw [hfirst] at h; cases h
    | some found =>
      rw [hfirst] at h
      cases h
      obtain ⟨member, hbegins, longest⟩ := Token.first?_eq_some_iff.1 hfirst
      obtain ⟨n, hn⟩ : ∃ n, token.spelling.length = n + 1 :=
        Nat.exists_eq_succ_of_ne_zero (Token.length_spelling_ne_zero member)
      rw [Token.begins_iff, hn, List.take_succ_cons] at hbegins
      have hl : (text.take n).length = n := by
        have := congrArg List.length hbegins
        simp only [List.length_map, List.length_cons, String.length_toList, hn] at this
        omega
      refine ⟨text.take n, text.drop n, (List.take_append_drop n text).symm, by rw [hn, hl]; rfl, ?_⟩
      exact .spelled member hbegins (by simpa using longest)

/-! ## Cutting from the left -/

theorem cuts_nil_iff {tokens : List Token} : Cuts [] tokens ↔ tokens = [] := by
  refine ⟨fun h => ?_, by rintro rfl; exact .nil⟩
  generalize ht : [] = text at h
  cases h with
  | nil => rfl
  | blank => cases ht
  | lexeme reads => exact absurd (List.append_eq_nil_iff.1 ht.symm).1 reads.not_blank.1

/-- A text that is cut begins with a blank or with a lexeme, and its rest is cut. -/
theorem Cuts.cons_cases {c : Char} {text : List Char} {tokens : List Token} (h : Cuts (c :: text) tokens) :
    (Text.isBlank c ∧ Cuts text tokens) ∨
      ∃ chars rest token tokens', text = chars ++ rest ∧ Reads (c :: chars) rest token ∧
        tokens = token :: tokens' ∧ Cuts rest tokens' := by
  generalize ht : c :: text = full at h
  cases h with
  | nil => cases ht
  | blank hb hc => cases ht; exact .inl ⟨hb, hc⟩
  | @lexeme chars rest token tokens' reads cuts =>
    cases chars with
    | nil => exact absurd rfl reads.not_blank.1
    | cons d chars =>
      obtain ⟨rfl, rfl⟩ := List.cons.inj ht
      exact .inr ⟨chars, rest, token, tokens', rfl, reads, rfl, cuts⟩

theorem cuts_blank_iff {c : Char} {text : List Char} {tokens : List Token} (hb : Text.isBlank c) :
    Cuts (c :: text) tokens ↔ Cuts text tokens := by
  refine ⟨fun h => ?_, .blank hb⟩
  rcases h.cons_cases with ⟨-, h⟩ | ⟨chars, rest, token, tokens', -, reads, -⟩
  · exact h
  · have := reads.not_blank.2 c (by simp)
    rw [hb] at this; cases this

theorem cuts_cons_iff {c : Char} {text : List Char} {tokens : List Token} (hb : ¬ Text.isBlank c) :
    Cuts (c :: text) tokens ↔ ∃ token more tokens', read c text = .ok (token, more) ∧ tokens = token :: tokens' ∧
      Cuts (text.drop more) tokens' := by
  constructor
  · intro h
    rcases h.cons_cases with ⟨hb', -⟩ | ⟨chars, rest, token, tokens', rfl, reads, rfl, cuts⟩
    · exact absurd hb' hb
    · exact ⟨token, chars.length, tokens', read_of_reads reads, rfl, by simpa using cuts⟩
  · rintro ⟨token, more, tokens', hread, rfl, cuts⟩
    obtain ⟨chars, rest, rfl, rfl, reads⟩ := reads_of_read hread
    rw [List.drop_left] at cuts
    exact .lexeme reads cuts

/-- A text is cut in at most one way. -/
theorem Cuts.unique {text : List Char} {tokens tokens' : List Token} (h : Cuts text tokens)
    (h' : Cuts text tokens') : tokens = tokens' := by
  induction h generalizing tokens' with
  | nil => exact (cuts_nil_iff.1 h').symm
  | blank hb _ ih => exact ih ((cuts_blank_iff hb).1 h')
  | @lexeme chars rest token tokens reads _ ih =>
    obtain ⟨c, chars, rfl⟩ := List.exists_cons_of_ne_nil reads.not_blank.1
    have hb : ¬ Text.isBlank c := by simp [reads.not_blank.2 c]
    have h' : Cuts (c :: (chars ++ rest)) tokens' := h'
    obtain ⟨_, _, _, hread, rfl, cuts⟩ := (cuts_cons_iff hb).1 h'
    rw [read_of_reads reads] at hread
    cases hread
    rw [List.drop_left] at cuts
    rw [ih cuts]

/-! ## Splicing -/

/-- No lexeme goes on with this character, though one may begin with it. -/
def breaks (c : Char) : Bool :=
  !isNumeral c && Token.catalog.all fun token => !token.spelling.toList.tail.contains c.toLower

/-- A spelling that fits what is written as `chars` and goes on past it does not meet a character that breaks. -/
theorem length_le_of_begins {chars rest : List Char} {token : Token} (member : token ∈ Token.catalog)
    (hne : chars ≠ []) (hrest : rest.head?.all breaks) (h : Token.begins token.spelling (chars ++ rest)) :
    token.spelling.length ≤ chars.length := by
  by_contra hlong
  rw [Token.begins_iff] at h
  cases rest with
  | nil =>
    have := congrArg List.length h
    simp only [List.append_nil, List.length_map, List.length_take, String.length_toList] at this
    omega
  | cons d rest =>
    obtain ⟨c, chars, rfl⟩ := List.exists_cons_of_ne_nil hne
    obtain ⟨n, hn⟩ : ∃ n, token.spelling.length = (c :: chars).length + (n + 1) :=
      ⟨token.spelling.length - (c :: chars).length - 1, by omega⟩
    rw [hn, List.take_length_add_append, List.take_succ_cons] at h
    have hd : breaks d := by simpa using hrest
    simp only [breaks, Bool.and_eq_true, List.all_eq_true] at hd
    have := hd.2 token member
    rw [← h] at this
    simp at this

theorem begins_of_append {text rest : List Char} {token : Token} (member : token ∈ Token.catalog) (hne : text ≠ [])
    (hrest : rest.head?.all breaks) (h : Token.begins token.spelling (text ++ rest)) :
    Token.begins token.spelling text := by
  have inside : token.spelling.length ≤ text.length := length_le_of_begins member hne hrest h
  rw [Token.begins_iff] at h ⊢
  rwa [List.take_append_of_le_length inside] at h

/-- A row of digits and points does not go on with a character that breaks. -/
theorem not_isNumeral_of_breaks {rest : List Char} (hrest : rest.head?.all breaks) :
    rest.head?.all (!isNumeral ·) := by
  cases rest with
  | nil => rfl
  | cons d rest =>
    have hd : breaks d := by simpa using hrest
    simp only [breaks, Bool.and_eq_true] at hd
    simpa using hd.1

/-- A spelling of the catalog is read as it stands before a character that breaks. -/
theorem reads_spelling {token : Token} (member : token ∈ Token.catalog) {rest : List Char}
    (hrest : rest.head?.all breaks) : Reads token.spelling.toList rest token := by
  have hne : ∀ token ∈ Token.catalog, token.spelling.toList ≠ [] := by decide
  refine .spelled member (Token.toLower_spelling member) fun other hother hbegins => ?_
  rw [← String.length_toList (s := token.spelling)]
  exact length_le_of_begins hother (hne token member) hrest hbegins

/-- No spelling goes on from one of a single character, so that one is read whatever follows it. -/
theorem reads_single {token : Token} (member : token ∈ Token.catalog) (single : token.spelling.length = 1)
    (rest : List Char) : Reads token.spelling.toList rest token := by
  have longest : ∀ token ∈ Token.catalog, token.spelling.length = 1 → ∀ other ∈ Token.catalog,
      other.spelling.toList.head? = token.spelling.toList.head? → other.spelling.length ≤ 1 := by decide
  have hlower := Token.toLower_spelling member
  refine .spelled member hlower fun other hother hbegins => ?_
  rw [single]
  apply longest token member single other hother
  obtain ⟨c, hc⟩ := List.length_eq_one_iff.1 (String.length_toList.trans single)
  rw [hc] at hlower hbegins ⊢
  rw [Token.begins_iff] at hbegins
  rw [← hbegins, List.head?_map, List.head?_take, if_neg, List.singleton_append, List.head?_cons]
  · exact congrArg List.head? hlower
  · exact Token.length_spelling_ne_zero hother

/-- A lexeme stays one when what follows it changes behind a character that breaks. -/
theorem Reads.splice {chars next rest rest' : List Char} {token : Token} (h : Reads chars (next ++ rest) token)
    (hrest : rest'.head?.all breaks) : Reads chars (next ++ rest') token := by
  have hne := h.not_blank.1
  cases h with
  | number numerals maximal points digits =>
    refine .number numerals ?_ points digits
    cases next with
    | nil => exact not_isNumeral_of_breaks hrest
    | cons d _ => simpa using maximal
  | spelled member spelling longest =>
    refine .spelled member spelling fun other hother hbegins => longest other hother ?_
    -- A spelling that fits the new text ends before the character that breaks, so it fits the old text too.
    rw [← List.append_assoc] at hbegins ⊢
    have shared : Token.begins other.spelling (chars ++ next) := begins_of_append hother (by simp [hne]) hrest hbegins
    exact Token.begins_append shared rest

/-- A text that is followed by a character that breaks is cut on its own. -/
theorem Cuts.append {text rest : List Char} {tokens tokens' : List Token} (h : Cuts text tokens)
    (hrest : rest.head?.all breaks) (h' : Cuts rest tokens') : Cuts (text ++ rest) (tokens ++ tokens') := by
  induction h with
  | nil => exact h'
  | blank hb _ ih => exact .blank hb ih
  | @lexeme chars next token tokens reads _ ih =>
    rw [List.append_assoc]
    have : Reads chars (next ++ []) token := by simpa using reads
    exact .lexeme (this.splice hrest) ih

end Lexeme

end Formula
