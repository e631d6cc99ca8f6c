/-! Computations that may fail: how a success is taken apart. -/

set_option autoImplicit false

namespace MinimalVm.Semantics

universe u v

variable {ε : Type u} {A B : Type v} {x : Except ε A} {b : B}

theorem bind_eq_ok {f : A → Except ε B} : x >>= f = .ok b ↔ ∃ a, x = .ok a ∧ f a = .ok b := by
  cases x with
  | error e =>
    constructor
    · intro same
      cases same
    · rintro ⟨_, same, _⟩
      cases same
  | ok a =>
    constructor
    · exact fun same => ⟨a, rfl, same⟩
    · rintro ⟨_, equal, same⟩
      cases equal
      exact same

theorem map_eq_ok {f : A → B} : f <$> x = .ok b ↔ ∃ a, x = .ok a ∧ f a = b := by
  cases x with
  | error e =>
    constructor
    · intro same
      cases same
    · rintro ⟨_, same, _⟩
      cases same
  | ok a =>
    constructor
    · exact fun same => ⟨a, rfl, Except.ok.inj same⟩
    · rintro ⟨_, equal, same⟩
      cases equal
      exact congrArg Except.ok same

theorem mapError_eq_ok {δ : Type u} {f : ε → δ} {a : A} : x.mapError f = .ok a ↔ x = .ok a := by
  cases x with
  | error e =>
    constructor
    · intro same
      cases same
    · intro same
      cases same
  | ok other =>
    constructor
    · exact fun same => congrArg Except.ok (Except.ok.inj same)
    · intro same
      cases same
      rfl

theorem not_ok {x : Except ε A} (fails : ∀ a, x ≠ .ok a) : ∃ e, x = .error e := by
  cases x with
  | error e => exact ⟨e, rfl⟩
  | ok a => exact absurd rfl (fails a)

theorem ok_of_toOption {a : A} (succeeds : x.toOption = some a) : x = .ok a := by
  cases x with
  | error e => cases succeeds
  | ok other => exact congrArg Except.ok (Option.some.inj succeeds)

end MinimalVm.Semantics
