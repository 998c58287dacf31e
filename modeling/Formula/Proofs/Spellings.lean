import Formula.Proofs.Lexing
import Formula.Text.LowerCase
/-!
# The longest spelling

The look-up of a token finds the longest spelling of the catalog with which a definition goes on at a position, in
letters of either case, and nothing iff there is none (`lookup?_finds_longest`). Only ASCII letters have to be folded
for that: a text that holds any other character does not become a spelling of the catalog in lower case
(`lowerCase_eq_spelling_iff`).
-/

namespace Formula

/-! ## Lower case in all scripts -/

namespace Text

/-- Capitals behind ASCII have small letters behind ASCII, all but the Kelvin sign. -/
theorem small_of_capitals : ∀ range ∈ capitals, 128 ≤ range.first →
    range.first = 0x212A ∧ range.last = 0x212A ∧ range.small = 0x6B ∨
      128 ≤ range.small ∧ (range.small + (range.last - range.first) < 0xD800 ∨
        0xDFFF < range.small ∧ range.small + (range.last - range.first) < 0x110000) := by
  decide +kernel

theorem smallLetter_of_isAscii {c : Char} (h : c.toNat < 128) : smallLetter c = c.toLower := by
  have all : ∀ n < 128, smallLetter (Char.ofNat n) = (Char.ofNat n).toLower := by decide +kernel
  have := all c.toNat h
  rwa [Char.ofNat_toNat] at this

theorem smallLetter_of_foreign {c : Char} (h : 128 ≤ c.toNat) : 128 ≤ (smallLetter c).toNat ∨ smallLetter c = 'k' := by
  unfold smallLetter
  split
  · next range hfind =>
    have member := List.mem_of_find?_eq_some hfind
    have within : (range.first ≤ c.toNat ∧ c.toNat ≤ range.last) ∧ (c.toNat - range.first) % range.step = 0 := by
      simpa [Capitals.contains] using List.find?_some hfind
    have ascii : ∀ range ∈ capitals, range.first < 128 → range.last < 128 := by decide +kernel
    have foreign : 128 ≤ range.first := by
      by_contra early
      have := ascii range member (by omega)
      omega
    rcases small_of_capitals range member foreign with ⟨first, last, small⟩ | ⟨behind, valid⟩
    · right
      have here : c.toNat - range.first = 0 := by omega
      rw [small, here]
    · left
      have : (range.small + (c.toNat - range.first)).isValidChar := by
        unfold Nat.isValidChar
        omega
      rw [Char.toNat_ofNat, if_pos this]
      exact Nat.le_add_right_of_le behind
  · exact .inl h

theorem lowerCaseOf_of_isAscii {c : Char} (h : c.toNat < 128) (final : Bool) : lowerCaseOf final c = [c.toLower] := by
  have dotted : c ≠ '\u0130' := by
    rintro rfl
    exact absurd h (by decide)
  have sigma : c ≠ '\u03A3' := by
    rintro rfl
    exact absurd h (by decide)
  rw [lowerCaseOf, if_neg dotted, if_neg sigma, smallLetter_of_isAscii h]

/-- The lower case of what is not ASCII cannot be written in ASCII without a k. -/
theorem lowerCaseOf_of_foreign {c : Char} (h : 128 ≤ c.toNat) (final : Bool) :
    ∃ d ∈ lowerCaseOf final c, 128 ≤ d.toNat ∨ d = 'k' := by
  unfold lowerCaseOf
  split
  · exact ⟨'\u0307', by simp, by decide⟩
  · split
    · cases final
      · exact ⟨'\u03C3', by simp, by decide⟩
      · exact ⟨'\u03C2', by simp, by decide⟩
    · exact ⟨_, List.mem_singleton_self _, smallLetter_of_foreign h⟩

theorem toLower_of_foreign {c : Char} (h : 128 ≤ c.toNat) : c.toLower = c := by
  refine toLower_of_not_isUpper fun upper => ?_
  simp only [Char.isUpper, ge_iff_le, decide_eq_true_eq, UInt32.le_iff_toNat_le] at upper
  have : c.toNat ≤ 90 := upper.2
  omega

/-- Where no k and nothing but ASCII is looked for, the case of ASCII letters is all that counts. -/
theorem lowerCaseBehind_eq_iff (endsWord : List Char → List Char → Bool) {before text spelling : List Char}
    (plain : ∀ d ∈ spelling, d.toNat < 128 ∧ d ≠ 'k') :
    lowerCaseBehind endsWord before text = spelling ↔ text.map Char.toLower = spelling := by
  induction text generalizing before spelling with
  | nil => rfl
  | cons c rest ih =>
    rw [lowerCaseBehind, List.map_cons]
    by_cases ascii : c.toNat < 128
    · rw [lowerCaseOf_of_isAscii ascii, List.singleton_append]
      cases spelling with
      | nil => simp
      | cons d spelling => rw [List.cons.injEq, List.cons.injEq, ih (List.forall_mem_cons.1 plain).2]
    · have foreign : 128 ≤ c.toNat := Nat.le_of_not_lt ascii
      constructor
      · rintro rfl
        obtain ⟨d, hd, special⟩ := lowerCaseOf_of_foreign foreign (endsWord before rest)
        obtain ⟨small, hk⟩ := plain d (List.mem_append_left _ hd)
        exact absurd special (not_or.2 ⟨Nat.not_le_of_lt small, hk⟩)
      · rintro rfl
        obtain ⟨small, -⟩ := plain c.toLower List.mem_cons_self
        rw [toLower_of_foreign foreign] at small
        exact absurd small ascii

end Text

namespace Token

/-! ## Spellings at a position -/

/-- From a position on, a definition goes on with a spelling, in letters of either case. -/
def SpelledAt (definition : String) (position : Nat) (spelling : String) : Prop :=
  ∀ index < spelling.length, ∃ c d, definition.toList[position + index]? = some c ∧
    spelling.toList[index]? = some d ∧ c.toLower = d.toLower

/-- A token has the longest of the spellings with which a definition goes on at a position. -/
structure LongestAt (definition : String) (position : Nat) (token : Token) : Prop where
  member : token ∈ catalog
  spelled : SpelledAt definition position token.spelling
  longest : ∀ other ∈ catalog, SpelledAt definition position other.spelling →
    other.spelling.length ≤ token.spelling.length

variable {definition : String} {position : Nat} {token : Token}

theorem spelledAt_iff_begins (member : token ∈ catalog) :
    SpelledAt definition position token.spelling ↔ begins token.spelling (definition.toList.drop position) := by
  have lower : ∀ {index : Nat} {d : Char}, token.spelling.toList[index]? = some d → d.toLower = d := by
    intro index d hd
    have := congrArg (·[index]?) (toLower_spelling member)
    simpa [List.getElem?_map, hd] using this
  rw [begins_iff]
  constructor
  · intro h
    refine List.ext_getElem? fun index => ?_
    by_cases inside : index < token.spelling.length
    · obtain ⟨c, d, hc, hd, same⟩ := h index inside
      rw [List.getElem?_map, List.getElem?_take_of_lt inside, List.getElem?_drop, hc, hd, Option.map_some, same,
        lower hd]
    · rw [List.getElem?_eq_none, List.getElem?_eq_none]
      · rw [String.length_toList]
        omega
      · rw [List.length_map, List.length_take]
        omega
  · intro h index inside
    obtain ⟨d, hd⟩ : ∃ d, token.spelling.toList[index]? = some d := by
      rw [← String.length_toList] at inside
      exact ⟨_, List.getElem?_eq_getElem inside⟩
    have folded := hd
    rw [← h, List.getElem?_map, List.getElem?_take_of_lt inside, List.getElem?_drop] at folded
    obtain ⟨c, hc, same⟩ := Option.map_eq_some_iff.1 folded
    exact ⟨c, d, hc, hd, by rw [same, lower hd]⟩

theorem longestAt_iff : LongestAt definition position token ↔ lookup? definition position = some token := by
  rw [lookup?, first?_eq_some_iff]
  constructor
  · rintro ⟨member, spelled, longest⟩
    exact ⟨member, (spelledAt_iff_begins member).1 spelled,
      fun other ho hb => longest other ho ((spelledAt_iff_begins ho).2 hb)⟩
  · rintro ⟨member, begins, longest⟩
    exact ⟨member, (spelledAt_iff_begins member).2 begins,
      fun other ho hs => longest other ho ((spelledAt_iff_begins ho).1 hs)⟩

theorem lookup?_eq_none_iff :
    lookup? definition position = none ↔ ∀ token ∈ catalog, ¬ SpelledAt definition position token.spelling := by
  rw [lookup?, first?_eq_none_iff]
  exact forall₂_congr fun token member => not_congr (spelledAt_iff_begins member).symm

theorem SpelledAt.inside (h : SpelledAt definition position token.spelling) (member : token ∈ catalog) :
    position + token.spelling.length ≤ definition.length := by
  have := length_spelling_ne_zero member
  obtain ⟨c, -, hc, -⟩ := h (token.spelling.length - 1) (by omega)
  have := (List.getElem?_eq_some_iff.1 hc).1
  rw [String.length_toList] at this
  omega

/-- In any script, the lower case of as many characters as a spelling has is the spelling iff they spell it. -/
theorem lowerCase_eq_spelling_iff (member : token ∈ catalog) (endsWord : List Char → List Char → Bool) :
    position + token.spelling.length ≤ definition.length ∧
        Text.lowerCase endsWord ((definition.toList.drop position).take token.spelling.length) =
          token.spelling.toList ↔
      SpelledAt definition position token.spelling := by
  have plain : ∀ d ∈ token.spelling.toList, d.toNat < 128 ∧ d ≠ 'k' := by
    have all : ∀ token ∈ catalog, token.spelling.toList.all fun d => d.toNat < 128 && d != 'k' := by decide
    simpa using all token member
  rw [Text.lowerCase, Text.lowerCaseBehind_eq_iff endsWord plain, ← begins_iff, ← spelledAt_iff_begins member,
    and_iff_right_iff_imp]
  exact fun h => h.inside member

/-! ## Spellings that go on -/

/-- Behind the spelling of a token that token is found, unless the text makes the spelling a longer one of the
catalog. -/
theorem lookup?_spelling_iff (member : token ∈ catalog) (rest : String) :
    lookup? (token.spelling ++ rest) 0 = some token ↔
      ¬ ∃ more other, more ≠ [] ∧ more <+: rest.toList ∧ other ∈ catalog ∧
        (token.spelling.toList ++ more).map Char.toLower = other.spelling.toList := by
  have begun : begins token.spelling (token.spelling.toList ++ rest.toList) := by
    rw [begins_iff, ← String.length_toList, List.take_left, toLower_spelling member]
  rw [lookup?, String.toList_append, List.drop_zero, first?_eq_some_iff]
  constructor
  · rintro ⟨-, -, longest⟩ ⟨more, other, nonempty, ⟨left, split⟩, ho, spelled⟩
    have length : other.spelling.length = token.spelling.length + more.length := by
      rw [← String.length_toList, ← spelled, List.length_map, List.length_append, String.length_toList]
    have longer : begins other.spelling (token.spelling.toList ++ rest.toList) := by
      rw [← split, ← List.append_assoc]
      refine begins_append (begins_iff.2 ?_) left
      rw [length, ← String.length_toList, ← List.length_append, List.take_length, spelled]
    have := longest other ho longer
    have := List.length_pos_iff.2 nonempty
    omega
  · refine fun h => ⟨member, begun, fun other ho hb => ?_⟩
    by_contra longer
    rw [begins_iff, List.take_append, String.length_toList, List.take_of_length_le (by
      rw [String.length_toList]
      omega)] at hb
    refine h ⟨_, other, ?_, List.take_prefix _ _, ho, hb⟩
    intro nothing
    rw [nothing, List.append_nil] at hb
    have := congrArg List.length hb
    rw [List.length_map, String.length_toList, String.length_toList] at this
    omega

/-- The token that the look-up finds has the longest spelling with which the definition goes on, and is the only one
that has. Nothing is found iff the definition goes on with no spelling. So a spelling of the catalog is found behind
which no text makes it a longer one. The comparison may as well fold the case of all scripts. -/
theorem lookup?_finds_longest (definition : String) (position : Nat) :
    (∀ token, lookup? definition position = some token ↔ LongestAt definition position token) ∧
      (∀ token other, LongestAt definition position token → LongestAt definition position other → token = other) ∧
      (lookup? definition position = none ↔ ∀ token ∈ catalog, ¬ SpelledAt definition position token.spelling) ∧
      (∀ token ∈ catalog, ∀ rest : String, lookup? (token.spelling ++ rest) 0 = some token ↔
        ¬ ∃ more other, more ≠ [] ∧ more <+: rest.toList ∧ other ∈ catalog ∧
          (token.spelling.toList ++ more).map Char.toLower = other.spelling.toList) ∧
      ∀ token ∈ catalog, ∀ endsWord, position + token.spelling.length ≤ definition.length ∧
          Text.lowerCase endsWord ((definition.toList.drop position).take token.spelling.length) =
            token.spelling.toList ↔
        SpelledAt definition position token.spelling := by
  refine ⟨fun token => longestAt_iff.symm, fun token other ht ho => ?_, lookup?_eq_none_iff,
    fun token member => lookup?_spelling_iff member, fun token member => lowerCase_eq_spelling_iff member⟩
  exact Option.some.inj ((longestAt_iff.1 ht).symm.trans (longestAt_iff.1 ho))

/-- With letters of either case a definition goes on with the longer of two names; the shorter one is found where a
bracket comes next. -/
theorem lookup?_finds_longest_arctangent :
    LongestAt "1+ATan2(x,1)" 2 (.operator Kind.atan2.operator) ∧
      ¬ LongestAt "1+ATan2(x,1)" 2 (.operator Kind.atan.operator) ∧
      lookup? ("atan" ++ "(2)") 0 = some (.operator Kind.atan.operator) ∧ lookup? "1+" 2 = none := by
  have found : lookup? "1+ATan2(x,1)" 2 = some (.operator Kind.atan2.operator) := by decide +kernel
  have atan2 := ((lookup?_finds_longest _ _).1 _).1 found
  refine ⟨atan2, fun atan => ?_, ?_, (lookup?_finds_longest _ _).2.2.1.2 ?_⟩
  · exact absurd ((lookup?_finds_longest _ _).2.1 _ _ atan2 atan) (by decide)
  · exact ((lookup?_finds_longest "" 0).2.2.2.1 (.operator Kind.atan.operator) (by decide) "(2)").2 (by
      rintro ⟨more, other, nonempty, begun, member, spelled⟩
      obtain ⟨c, more, rfl⟩ := List.exists_cons_of_ne_nil nonempty
      obtain ⟨rfl, -⟩ := List.cons_prefix_cons.1 begun
      have : ∀ token ∈ catalog, token.spelling.toList[4]? ≠ some '(' := by decide
      exact this other member (by rw [← spelled]; rfl))
  · intro token member spelled
    obtain ⟨c, -, hc, -⟩ := spelled 0 (Nat.pos_of_ne_zero (length_spelling_ne_zero member))
    cases hc

end Token

end Formula
