set_option autoImplicit false

/- Steps that give a value or an error, one after the other. -/
namespace Criteria

variable {ε ε' α β : Type}

theorem ok_bind (a : α) (next : α → Except ε β) : (Except.ok a >>= next) = next a := rfl

/-- Two steps give a value only if both do. -/
theorem bind_eq_ok_iff {outcome : Except ε α} {next : α → Except ε β} {b : β} :
    outcome >>= next = .ok b ↔ ∃ a, outcome = .ok a ∧ next a = .ok b := by
  cases outcome with
  | error e =>
      constructor
      · intro found
        cases found
      · rintro ⟨a, same, -⟩
        cases same
  | ok a =>
      rw [ok_bind]
      constructor
      · intro found
        exact ⟨a, rfl, found⟩
      · rintro ⟨a', same, found⟩
        cases same
        exact found

theorem mapError_ok (told : ε → ε') (a : α) :
    (Except.ok a : Except ε α).mapError told = .ok a := rfl

theorem mapError_error (told : ε → ε') (e : ε) :
    (Except.error e : Except ε α).mapError told = .error (told e) := rfl

theorem mapError_eq_ok_iff {told : ε → ε'} {outcome : Except ε α} {a : α} :
    outcome.mapError told = .ok a ↔ outcome = .ok a := by
  cases outcome with
  | error e =>
      rw [mapError_error]
      constructor <;> intro same <;> cases same
  | ok b => rw [mapError_ok, Except.ok.injEq, Except.ok.injEq]

end Criteria
