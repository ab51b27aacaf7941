namespace Vcrtl.BugCheck

inductive BugCheckReason
  | unwindOnUnsafeException
  | invalidTargetUnwind
  | corruptedFunctionUnwindState
  | corruptedEhUnwindData
  | corruptedExceptionState
  | unwindingNonCxxFrame
  | sehHandlerNotInSafeseh
  | destructorThrewDuringUnwind
  | corruptedExceptionRegistrationChain
  | noexceptViolation
  | exceptionSpecificationNotSupported
  | noMatchingExceptionHandler
  | assertionFailure
  | forbiddenCall
  | stdTerminate
  deriving DecidableEq

/-- A call that does not return stops the machine on purpose, reads what is not
there (a null or stale pointer, an index outside its table) or never ends. -/
inductive Stop
  | bugCheck (reason : BugCheckReason)
  | fault
  | hang
  deriving DecidableEq

abbrev Exec := Except Stop

def onBugCheck {α : Type} (reason : BugCheckReason) : Exec α := .error (.bugCheck reason)

def verify (cond : Prop) [Decidable cond] : Exec Unit :=
  if cond then .ok () else onBugCheck .assertionFailure

def BugChecks {α : Type} (x : Exec α) : Prop := ∃ reason, x = .error (.bugCheck reason)

theorem not_bugChecks_ok {α : Type} {a : α} : ¬ BugChecks (.ok a : Exec α) := by
  rintro ⟨reason, h⟩
  cases h

theorem verify_ok {cond : Prop} [Decidable cond] {u : Unit} : verify cond = .ok u ↔ cond := by
  by_cases h : cond <;> simp [verify, onBugCheck, h]

theorem bind_ok {α β : Type} {x : Exec α} {f : α → Exec β} {b : β} :
    (x >>= f) = .ok b ↔ ∃ a, x = .ok a ∧ f a = .ok b := by
  cases x with
  | error e => simp [bind, Except.bind]
  | ok a => simp [bind, Except.bind]

theorem bind_error {α β : Type} {x : Exec α} {f : α → Exec β} {e : Stop} :
    (x >>= f) = .error e ↔ x = .error e ∨ ∃ a, x = .ok a ∧ f a = .error e := by
  cases x with
  | error e => simp [bind, Except.bind]
  | ok a => simp [bind, Except.bind]

theorem map_error {α β : Type} {x : Exec α} {f : α → β} {e : Stop} :
    f <$> x = .error e ↔ x = .error e := by
  cases x with
  | error e => simp [Functor.map, Except.map]
  | ok a => simp [Functor.map, Except.map]

theorem pure_ok {α : Type} {a b : α} : (pure a : Exec α) = .ok b ↔ a = b := by
  simp [pure, Except.pure]

theorem map_ok {α β : Type} {x : Exec α} {f : α → β} {b : β} :
    f <$> x = .ok b ↔ ∃ a, x = .ok a ∧ f a = b := by
  cases x with
  | error e => simp [Functor.map, Except.map]
  | ok a => simp [Functor.map, Except.map]

end Vcrtl.BugCheck
