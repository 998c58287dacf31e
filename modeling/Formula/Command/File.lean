/-!
# Files

A file holds one text. Its path asks by its ending for the text to be packed: to be compressed, or to be put into an
archive as the only member of it.
-/

namespace Formula.Command

inductive Packing
  | gzip | bzip2 | xz | zstandard | zip
  /-- An archive that may be compressed. -/
  | tar
deriving DecidableEq, Repr

namespace Packing

/-- The endings of the paths of packed files. Of two that fit, the earlier one counts. -/
def endings : List (String × Packing) :=
  [(".tar", .tar), (".tar.gz", .tar), (".tar.bz2", .tar), (".tar.xz", .tar), (".gz", .gzip), (".bz2", .bzip2),
   (".zip", .zip), (".xz", .xz), (".zst", .zstandard)]

/-- What a path asks for, in letters of either case. -/
def ofPath? (path : String) : Option Packing :=
  (endings.find? fun (ending, _) => ending.toList.isSuffixOf (path.toList.map Char.toLower)).map (·.2)

end Packing

/-- A file that is written. -/
structure File where
  path : String
  /-- What the file holds as soon as it is unpacked. -/
  text : String

/-- The packing of a file. -/
def File.packing? (file : File) : Option Packing :=
  Packing.ofPath? file.path

/-- A file is packed iff its path has one of six endings: those of two parts end in one of them too. -/
theorem File.packing?_eq_none_iff {file : File} : file.packing? = none ↔
    ∀ ending ∈ [".gz", ".bz2", ".xz", ".zst", ".zip", ".tar"],
      ¬ ending.toList <:+ file.path.toList.map Char.toLower := by
  have listed : ∀ ending ∈ [".gz", ".bz2", ".xz", ".zst", ".zip", ".tar"],
      ∃ entry ∈ Packing.endings, entry.1 = ending := by decide
  have shorter : ∀ entry ∈ Packing.endings,
      ∃ ending ∈ [".gz", ".bz2", ".xz", ".zst", ".zip", ".tar"], ending.toList <:+ entry.1.toList := by decide
  rw [packing?, Packing.ofPath?, Option.map_eq_none_iff, List.find?_eq_none]
  constructor
  · intro h ending he
    obtain ⟨entry, member, rfl⟩ := listed ending he
    simpa using h entry member
  · intro h entry member fits
    obtain ⟨ending, he, tail⟩ := shorter entry member
    exact h ending he (tail.trans (List.isSuffixOf_iff_suffix.1 fits))

example : Packing.ofPath? "samples.csv" = none ∧ Packing.ofPath? "samples.CSV.Zip" = some .zip ∧
    Packing.ofPath? "samples.tar.gz" = some .tar := by decide

end Formula.Command
