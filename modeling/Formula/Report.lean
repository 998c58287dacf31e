import Formula.Log
/-!
# Reports

The result of a computation that can fail and that writes to the log, whether it fails or not.
-/

namespace Formula

/-- An outcome, and the log written on the way to it. -/
structure Report (ε α : Type) where
  outcome : Except ε α
  log : Log := []

namespace Report

variable {ε ε' α β : Type}

/-- A failure with the records that announce it. -/
def fail (error : ε) (log : Log) : Report ε α := ⟨.error error, log⟩

def note (event : Event) : Report ε Unit := ⟨.ok (), [event]⟩

def ofExcept (outcome : Except ε α) : Report ε α := ⟨outcome, []⟩

/-- The second computation continues the first one and its log, unless the first one failed. -/
def andThen (first : Report ε α) (next : α → Report ε β) : Report ε β :=
  match first with
  | ⟨.ok value, log⟩ =>
    let second := next value
    ⟨second.outcome, log ++ second.log⟩
  | ⟨.error error, log⟩ => ⟨.error error, log⟩

instance : Monad (Report ε) where
  pure value := ⟨.ok value, []⟩
  bind := andThen

/-- The same report with its failure in other terms. -/
def mapError (f : ε → ε') (report : Report ε α) : Report ε' α :=
  ⟨report.outcome.mapError f, report.log⟩

@[simp] theorem outcome_pure (value : α) : (pure value : Report ε α).outcome = .ok value := rfl

@[simp] theorem log_pure (value : α) : (pure value : Report ε α).log = [] := rfl

@[simp] theorem outcome_mapError (f : ε → ε') (report : Report ε α) :
    (report.mapError f).outcome = report.outcome.mapError f := rfl

@[simp] theorem outcome_bind (first : Report ε α) (next : α → Report ε β) :
    (first >>= next).outcome = first.outcome >>= fun value => (next value).outcome := by
  rcases first with ⟨_ | _, _⟩ <;> rfl

@[simp] theorem outcome_map (f : α → β) (report : Report ε α) :
    (f <$> report).outcome = f <$> report.outcome := by
  rcases report with ⟨_ | _, _⟩ <;> rfl

theorem bind_ok {value : α} {log : Log} (next : α → Report ε β) :
    (⟨.ok value, log⟩ : Report ε α) >>= next = ⟨(next value).outcome, log ++ (next value).log⟩ := rfl

theorem bind_error {error : ε} {log : Log} (next : α → Report ε β) :
    (⟨.error error, log⟩ : Report ε α) >>= next = ⟨.error error, log⟩ := rfl

private theorem andThen_assoc {γ : Type} (first : Report ε α) (next : α → Report ε β) (last : β → Report ε γ) :
    (first.andThen next).andThen last = first.andThen fun value => (next value).andThen last := by
  rcases first with ⟨_ | value, log⟩
  · rfl
  · simp only [andThen]
    rcases next value with ⟨_ | _, _⟩ <;> simp [List.append_assoc]

instance : LawfulMonad (Report ε) :=
  LawfulMonad.mk' _
    (by rintro _ ⟨_ | _, _⟩ <;> simp [Functor.map, andThen])
    (fun _ _ => by simp [bind, pure, andThen])
    andThen_assoc

end Report

end Formula
