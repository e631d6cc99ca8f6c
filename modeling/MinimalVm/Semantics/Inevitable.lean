import MinimalVm.Semantics.Execution

/-! What every execution comes to that goes on for as long as it can.

A step that leaves the state as it is decides nothing. An execution is only
expected to go on from where some step changes the state, and then by one that
does. A goal is inevitable if all the ways to go on lead to it.
-/

set_option autoImplicit false

namespace MinimalVm.Semantics

variable {S L : Type} {step : S → L → Option S} {goal : S → Prop}

inductive Inevitable (step : S → L → Option S) (goal : S → Prop) : S → Prop
  | reached {s : S} : goal s → Inevitable step goal s
  | goesOn {s : S} : (∃ l t, step s l = some t ∧ t ≠ s) →
      (∀ l t, step s l = some t → t ≠ s → Inevitable step goal t) → Inevitable step goal s

/-- No step changes the state any more. -/
def Stuck (step : S → L → Option S) (s : S) : Prop := ∀ l t, step s l = some t → t = s

theorem Inevitable.imp {weaker : S → Prop} (implies : ∀ s, goal s → weaker s) {s : S}
    (inevitable : Inevitable step goal s) : Inevitable step weaker s := by
  induction inevitable with
  | reached there => exact .reached (implies _ there)
  | goesOn goes all ih => exact .goesOn goes ih

/-- A goal is inevitable if every step short of it that changes the state goes
down in rank, and there always is one. -/
theorem inevitable_of_rank (inv : S → Prop) (rank : S → Nat)
    (goes : ∀ s, inv s → ¬ goal s → ∃ l t, step s l = some t ∧ t ≠ s)
    (lower : ∀ s l t, inv s → step s l = some t → t ≠ s → inv t ∧ rank t < rank s)
    {s : S} (start : inv s) : Inevitable step goal s := by
  induction ranked : rank s using Nat.strongRecOn generalizing s with
  | ind n ih =>
    by_cases there : goal s
    · exact .reached there
    · refine .goesOn (goes s start there) fun l t moved changed => ?_
      obtain ⟨still, less⟩ := lower s l t start moved changed
      exact ih (rank t) (ranked ▸ less) still rfl

/-- An execution that gets stuck has met every inevitable goal that is kept. -/
theorem Inevitable.of_stuck (kept : ∀ s l t, goal s → step s l = some t → goal t) {s t : S}
    (inevitable : Inevitable step goal s) (reaches : Reaches step s t) (stuck : Stuck step t) : goal t := by
  induction inevitable with
  | reached there =>
    obtain ⟨ls, run⟩ := reaches
    exact invariant_execute goal kept there run
  | @goesOn s goes all ih =>
    obtain ⟨ls, run⟩ := reaches
    -- Steps that leave the state as it is are passed over by induction on the labels.
    induction ls with
    | nil =>
      cases run
      obtain ⟨l, u, moved, changed⟩ := goes
      exact absurd (stuck l u moved) changed
    | cons l ls passed =>
      obtain ⟨u, moved, rest⟩ := execute_cons.mp run
      by_cases same : u = s
      · exact passed (same ▸ rest)
      · exact ih l u moved same ⟨ls, rest⟩

end MinimalVm.Semantics
