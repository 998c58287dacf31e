import Formula.Command.Invocation
import Formula.Proofs.Conversion
/-!
# Arguments behind a separator

Behind a separator every text is positional, whatever it begins with. So each command takes every definition there, and
`eval` takes its numbers; options stand before the separator, each with its value behind an equals sign, in any order.
-/

namespace Formula.Command

namespace Argument

variable {α : Type} {options : List (String × α)}

theorem ofTexts_separator (texts : List String) :
    ofTexts options ("--" :: texts) = .ok (.separator :: texts.map .plain) := rfl

theorem ofTexts_cons {text : String} {argument : Argument α} (hn : text ≠ "--")
    (h : ofText options text = .ok argument) (texts : List String) :
    ofTexts options (text :: texts) = (ofTexts options texts).map (argument :: ·) := by
  rw [ofTexts, h]
  · rfl
  · exact hn

/-- Each text is one argument. -/
theorem length_of_ofTexts {texts : List String} {arguments : List (Argument α)}
    (h : ofTexts options texts = .ok arguments) : arguments.length = texts.length := by
  induction texts generalizing arguments with
  | nil =>
    cases h
    rfl
  | cons text texts ih =>
    by_cases hs : text = "--"
    · subst hs
      cases h
      simp
    · cases ht : ofText options text with
      | error stop =>
        rw [ofTexts, ht] at h
        · cases h
        · exact hs
      | ok argument =>
        rw [ofTexts_cons hs ht] at h
        cases hr : ofTexts options texts with
        | error stop => rw [hr] at h; cases h
        | ok rest =>
          rw [hr] at h
          cases h
          rw [List.length_cons, List.length_cons, ih hr]

end Argument

/-! ## Options with their values -/

namespace SampleOption

def name : SampleOption → String
  | x0 => "--x0"
  | x1 => "--x1"
  | dx => "--dx"
  | path => "--output_path"

/-- The argument that gives a value to an option. -/
def setting (option : SampleOption) (value : String) : String :=
  option.name ++ "=" ++ value

theorem toList_setting (option : SampleOption) (value : String) :
    (option.setting value).toList = option.name.toList ++ '=' :: value.toList := by
  simp [setting]

theorem exists_toList_setting (option : SampleOption) (value : String) :
    ∃ rest, (option.setting value).toList = '-' :: '-' :: rest ∧ rest ≠ [] := by
  rw [toList_setting]
  cases option <;> exact ⟨_, rfl, by simp⟩

theorem setting_ne_separator (option : SampleOption) (value : String) : option.setting value ≠ "--" := by
  intro h
  obtain ⟨rest, hl, hr⟩ := option.exists_toList_setting value
  rw [h] at hl
  exact hr (by simpa using hl)

theorem splitValue_setting (option : SampleOption) (value : String) :
    Argument.splitValue (option.setting value) = (option.name, some value) := by
  have name : option.name.toList.all (· ≠ '=') := by cases option <;> decide +kernel
  rw [Argument.splitValue, toList_setting, Code.span_append (List.all_eq_true.1 name) (by simp)]
  simp

theorem ofText_setting (option : SampleOption) (value : String) :
    Argument.ofText sampleOptions (option.setting value) = .ok (.option option (some value)) := by
  obtain ⟨rest, hl, -⟩ := option.exists_toList_setting value
  have candidates : Argument.candidates sampleOptions option.name = [some option] := by cases option <;> decide +kernel
  simp only [Argument.ofText, hl, splitValue_setting, candidates]

/-- Before the name of the command is known, the options of a command have no meaning. -/
theorem ofText_setting_foreign (option : SampleOption) (value : String) :
    Argument.ofText [("--log_level", ())] (option.setting value) =
      .ok (Argument.unnamed (option.setting value).toList.tail) := by
  obtain ⟨rest, hl, -⟩ := option.exists_toList_setting value
  have candidates : Argument.candidates [("--log_level", ())] option.name = [] := by
    cases option <;> decide +kernel
  simp only [Argument.ofText, hl, splitValue_setting, candidates, List.tail_cons]

end SampleOption

/-! ## Slots -/

theorem fill_definition (definition : String) :
    Slot.fill [none, some definition] [.one] = ([[definition]], [], false) := by
  simp [Slot.fill, Slot.take?, Slot.texts]

theorem fill_numbers (definition : String) {numbers : List String} (hne : numbers ≠ []) (hs : "--" ∉ numbers) :
    Slot.fill (none :: some definition :: numbers.map some) [.one, .many] = ([[definition], numbers], [], false) := by
  have before : (none :: some definition :: numbers.map some).span Option.isNone =
      ([none], some definition :: numbers.map some) :=
    @Code.span_append _ _ [none] (some definition :: numbers.map some) (List.forall_mem_singleton.2 rfl) (by simp)
  have after : (numbers.map some).span Option.isNone = ([], numbers.map some) :=
    @Code.span_append _ _ [] (numbers.map some) (by simp) (by cases numbers <;> simp)
  have one : Slot.take? (none :: some definition :: numbers.map some) .one =
      some ([none, some definition], numbers.map some) := by
    simp only [Slot.take?, before, after]
    rfl
  have many : Slot.take? (numbers.map some) .many = some (numbers.map some, []) := by
    obtain ⟨number, numbers, rfl⟩ := List.exists_cons_of_ne_nil hne
    simp [Slot.take?]
  have kept : Slot.texts (numbers.map some) = numbers := by
    simp [Slot.texts, Function.comp_def, List.erase_of_not_mem hs]
  simp only [Slot.fill, one, many, kept]
  simp [Slot.texts]

theorem given_option {α : Type} (slots : List Slot) (leftOver : Bool) (meaning : α) (value : String)
    (rest : List (Argument α)) :
    given slots leftOver (.option meaning (some value) :: rest) =
      .option meaning (notSeparator value) :: given slots leftOver rest := by
  rw [given]

theorem given_separator {α : Type} (slots : List Slot) (texts : List String) :
    given slots false ((.separator : Argument α) :: texts.map .plain) =
      let (filled, stillOpen, leftOver) := Slot.fill (none :: texts.map some) slots
      filled.map .positional ++ if leftOver || !stillOpen.isEmpty then [.stop .usage] else [] := by
  have more : (texts.map (Argument.plain (α := α))).takeWhile (fun argument => argument.positional?.isSome) =
      texts.map .plain := by
    simp [Argument.positional?]
  have row : ((Argument.separator : Argument α) :: texts.map .plain).filterMap Argument.positional? =
      none :: texts.map some := by
    simp [Argument.positional?, List.filterMap_map, Function.comp_def]
  rw [given]
  · simp only [more, row, List.drop_length, given, Bool.false_or]
  all_goals simp

/-! ## What a command gathers -/

/-- Texts of numbers. -/
def Denotes (texts : List String) (xs : List Float) : Prop :=
  List.Forall₂ (fun text x => Number.read? text = some x) texts xs

theorem read?_separator : Number.read? "--" = none := rfl

theorem Denotes.separator_notMem {texts : List String} {xs : List Float} (h : Denotes texts xs) : "--" ∉ texts := by
  induction h with
  | nil => simp
  | @cons text x _ _ head _ ih =>
    refine List.not_mem_cons_of_ne_of_not_mem ?_ ih
    rintro rfl
    rw [read?_separator] at head
    cases head

theorem Denotes.mapM_number {texts : List String} {xs : List Float} (h : Denotes texts xs) :
    texts.mapM number = .ok xs := by
  induction h with
  | nil => rfl
  | cons head _ ih =>
    rw [List.mapM_cons, ih, number, head]
    rfl

theorem given_definition {α : Type} (definition : String) :
    given [.one] false [(.separator : Argument α), .plain definition] = [.positional [definition]] := by
  have row := @given_separator α [.one] [definition]
  rw [List.map_singleton, List.map_singleton, fill_definition] at row
  exact row

theorem given_numbers {α : Type} (definition : String) {numbers : List String} (hne : numbers ≠ [])
    (hs : "--" ∉ numbers) :
    given [.one, .many] false ((.separator : Argument α) :: .plain definition :: numbers.map .plain) =
      [.positional [definition], .positional numbers] := by
  have row := @given_separator α [.one, .many] (definition :: numbers)
  simp only [List.map_cons, fill_numbers definition hne hs] at row
  exact row

theorem gather_definition (definition : String) :
    gather [] [.one] ["--", definition] = .ok { definition := some definition } := by
  rw [gather, Argument.ofTexts_separator]
  change (given [.one] false [.separator, .plain definition]).foldlM Gathered.add {} = _
  rw [given_definition]
  rfl

theorem gather_numbers (definition : String) {numbers : List String} {xs : List Float} (hne : numbers ≠ [])
    (h : Denotes numbers xs) :
    gather [] [.one, .many] ("--" :: definition :: numbers) = .ok { definition := some definition, xs } := by
  rw [gather, Argument.ofTexts_separator]
  change (given [.one, .many] false (.separator :: .plain definition :: numbers.map .plain)).foldlM Gathered.add {} = _
  rw [given_numbers definition hne h.separator_notMem]
  change (numbers.mapM number).map (fun xs => Gathered.mk (some definition) xs {} none) >>= pure = _
  rw [h.mapM_number]
  rfl

/-- Values given to options, in order. -/
abbrev Choices := List (SampleOption × String)

namespace Choices

/-- The last value given to an option. -/
def value? (choices : Choices) (option : SampleOption) : Option String :=
  choices.reverse.lookup option

/-- The values of the options that are numbers can be read. -/
def Legible (choices : Choices) : Prop :=
  ∀ choice ∈ choices, choice.1 ≠ .path → (Number.read? choice.2).isSome

def range (choices : Choices) : RangeRequest :=
  { x0 := choices.value? .x0 >>= Number.read?
    x1 := choices.value? .x1 >>= Number.read?
    dx := choices.value? .dx >>= Number.read? }

/-- The path that is given. A separator in the place of it is none. -/
def path (choices : Choices) : Option String :=
  choices.value? .path >>= notSeparator

def texts (choices : Choices) : List String :=
  choices.map fun (option, value) => option.setting value

/-- The arguments that a command takes choices for, or that it does not know. -/
theorem ofTexts_texts {α : Type} {options : List (String × α)} {argument : SampleOption → String → Argument α}
    (h : ∀ option value, Argument.ofText options (option.setting value) = .ok (argument option value))
    (choices : Choices) (rest : List String) :
    Argument.ofTexts options (choices.texts ++ rest) =
      (Argument.ofTexts options rest).map ((choices.map fun choice => argument choice.1 choice.2) ++ ·) := by
  induction choices with
  | nil => cases h : Argument.ofTexts options rest <;> simp [texts, h, Except.map]
  | cons choice choices ih =>
    change Argument.ofTexts options (choice.1.setting choice.2 :: (texts choices ++ rest)) = _
    rw [Argument.ofTexts_cons (choice.1.setting_ne_separator choice.2) (h choice.1 choice.2), ih]
    cases Argument.ofTexts options rest <;> rfl

theorem value?_concat (choices : Choices) (option other : SampleOption) (value : String) :
    value? (choices ++ [(option, value)]) other = if other = option then some value else choices.value? other := by
  by_cases h : other = option
  · subst h
    simp [value?]
  · have apart : (other == option) = false := by simpa using h
    simp [value?, h, List.lookup_cons, apart]

theorem number?_notSeparator {value : String} (h : (Number.read? value).isSome) :
    number? (notSeparator value) = .ok (Number.read? value) := by
  obtain ⟨x, hx⟩ := Option.isSome_iff_exists.1 h
  have apart : value ≠ "--" := by
    rintro rfl
    rw [read?_separator] at hx
    cases hx
  rw [notSeparator, if_neg apart, number?, number, hx]
  rfl

/-- One more option with its value, which counts as the last one. -/
theorem addOption_eq (choices : Choices) {option : SampleOption} {value : String}
    (h : option ≠ .path → (Number.read? value).isSome) :
    Gathered.addOption { range := choices.range, path := choices.path } option (notSeparator value) =
      .ok { range := range (choices ++ [(option, value)]), path := path (choices ++ [(option, value)]) } := by
  cases option with
  | path => simp [Gathered.addOption, range, path, value?_concat]
  | x0 | x1 | dx =>
    have number := number?_notSeparator (h (by decide))
    simp [Gathered.addOption, range, path, value?_concat, number, Except.map]

/-- What is gathered of options with their values. -/
theorem foldlM_add {choices : Choices} (h : choices.Legible) :
    (choices.map fun choice => Given.option choice.1 (notSeparator choice.2)).foldlM Gathered.add {} =
      .ok { range := choices.range, path := choices.path } := by
  induction choices using List.reverseRecOn with
  | nil => rfl
  | append_singleton choices choice ih =>
    have legible : Legible choices := fun choice hm => h choice (List.mem_append_left _ hm)
    have last := addOption_eq choices (h choice (List.mem_append_right _ List.mem_cons_self))
    rw [List.map_append, List.foldlM_append, ih legible]
    change Gathered.addOption _ choice.1 (notSeparator choice.2) >>= pure = _
    rw [last]
    rfl

theorem given_choices (choices : Choices) (slots : List Slot) (rest : List (Argument SampleOption)) :
    given slots false ((choices.map fun choice => Argument.option choice.1 (some choice.2)) ++ rest) =
      (choices.map fun choice => Given.option choice.1 (notSeparator choice.2)) ++ given slots false rest := by
  induction choices with
  | nil => rfl
  | cons choice choices ih => rw [List.map_cons, List.cons_append, given_option, ih, List.map_cons, List.cons_append]

theorem gather_choices {choices : Choices} (h : choices.Legible) (definition : String) :
    gather sampleOptions [.one] (choices.texts ++ ["--", definition]) =
      .ok { definition := some definition, range := choices.range, path := choices.path } := by
  rw [gather, ofTexts_texts SampleOption.ofText_setting, Argument.ofTexts_separator]
  change (given [.one] false ((choices.map fun choice => Argument.option choice.1 (some choice.2)) ++
    [.separator, .plain definition])).foldlM Gathered.add {} = _
  rw [given_choices, given_definition, List.foldlM_append, foldlM_add h]
  rfl

end Choices

/-! ## The invocation of a row of arguments -/

/-- The name of a command with its arguments, and nothing before it. -/
theorem ofArguments_named {name : String} (hn : Argument.ofText [("--log_level", ())] name = .ok (.plain name))
    (hs : name ≠ "--") {texts : List String} {arguments : List (Argument Unit)}
    (ht : Argument.ofTexts [("--log_level", ())] texts = .ok arguments) {request : Request}
    (hr : Request.named name texts = .ok request) :
    Invocation.ofArguments (name :: texts) = .ok ⟨.info, request⟩ := by
  have same : (arguments.zip texts).map (·.2) = texts :=
    List.map_snd_zip (Argument.length_of_ofTexts ht).ge
  rw [Invocation.ofArguments, Argument.ofTexts_cons hs hn, ht]
  change start .info false ((.plain name, name) :: arguments.zip texts) = _
  rw [start, same, hr]
  rfl

theorem ofArguments_check (definition : String) :
    Invocation.ofArguments ["check", "--", definition] = .ok ⟨.info, .check definition⟩ := by
  refine ofArguments_named rfl (by decide) (Argument.ofTexts_separator _) ?_
  rw [Request.named, gather_definition]
  rfl

theorem ofArguments_eval (definition : String) {numbers : List String} {xs : List Float} (hne : numbers ≠ [])
    (h : Denotes numbers xs) :
    Invocation.ofArguments ("eval" :: "--" :: definition :: numbers) = .ok ⟨.info, .eval definition xs⟩ := by
  refine ofArguments_named rfl (by decide) (Argument.ofTexts_separator _) ?_
  rw [Request.named, gather_numbers definition hne h]
  rfl

theorem ofArguments_sample {choices : Choices} (h : choices.Legible) (definition : String) :
    Invocation.ofArguments ("sample" :: (choices.texts ++ ["--", definition])) =
      .ok ⟨.info, .sample definition choices.range choices.path⟩ := by
  have ht := Choices.ofTexts_texts SampleOption.ofText_setting_foreign choices ["--", definition]
  refine ofArguments_named rfl (by decide) ht ?_
  rw [Request.named, Choices.gather_choices h]
  rfl

end Formula.Command
