/-!
# Computations that succeed

A computation that succeeds has steps that succeed; their values are taken apart here.
-/

namespace ScopedCheck

variable {ε ε' α β : Type}

theorem ok_bind (value : α) (next : α → Except ε β) : (.ok value >>= next) = next value :=
  rfl

theorem exists_ok_of_bind {step : Except ε α} {next : α → Except ε β} {found : β}
    (h : (step >>= next) = .ok found) : ∃ value, step = .ok value ∧ next value = .ok found := by
  cases step with
  | error cause => cases h
  | ok value => exact ⟨value, rfl, h⟩

theorem exists_ok_of_map {step : Except ε α} {change : α → β} {found : β}
    (h : step.map change = .ok found) : ∃ value, step = .ok value ∧ change value = found := by
  cases step with
  | error cause => cases h
  | ok value => exact ⟨value, rfl, Except.ok.inj h⟩

theorem map_eq_error_iff {step : Except ε α} {change : α → β} {cause : ε} :
    step.map change = .error cause ↔ step = .error cause := by
  cases step <;> simp [Except.map]

theorem eq_ok_of_mapError {step : Except ε α} {change : ε → ε'} {found : α}
    (h : step.mapError change = .ok found) : step = .ok found := by
  cases step with
  | error cause => cases h
  | ok value => rw [Except.ok.inj h]

theorem eq_ok_of_toOption {step : Except ε α} {found : α} (h : step.toOption = some found) :
    step = .ok found := by
  cases step with
  | error cause => cases h
  | ok value => rw [Option.some.inj h]

/-- Steps that all succeed leave their values, and no value is left out. -/
theorem mapM_eq_ok_filterMap {step : α → Except ε β} {value? : α → Option β} {steps : List α}
    (h : ∀ a ∈ steps, ∃ b, value? a = some b ∧ step a = .ok b) :
    steps.mapM step = .ok (steps.filterMap value?) := by
  induction steps with
  | nil => rfl
  | cons a rest ih =>
      obtain ⟨b, hvalue, hstep⟩ := h a List.mem_cons_self
      rw [List.mapM_cons, hstep, ok_bind, ih fun a ha => h a (List.mem_cons_of_mem _ ha), ok_bind,
        List.filterMap_cons_some hvalue]
      rfl

end ScopedCheck
