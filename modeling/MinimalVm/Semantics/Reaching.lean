import MinimalVm.Semantics.Execution

/-! Executions that can be brought to a goal.

What an environment may do on the way is a condition on labels. A goal can be
reached from everywhere if every state short of it can be left for one of a
lower rank.
-/

set_option autoImplicit false

namespace MinimalVm.Semantics

variable {S L : Type} {step : S → L → Option S} {allowed : L → Prop} {s t u : S}

/-- Some execution whose labels are all allowed leads from one state to another. -/
def ReachesBy (step : S → L → Option S) (allowed : L → Prop) (s t : S) : Prop :=
  ∃ ls, (∀ l ∈ ls, allowed l) ∧ execute step s ls = some t

theorem ReachesBy.refl (step : S → L → Option S) (allowed : L → Prop) (s : S) : ReachesBy step allowed s s :=
  ⟨[], fun _ member => absurd member List.not_mem_nil, rfl⟩

theorem ReachesBy.one {l : L} (may : allowed l) (moved : step s l = some t) : ReachesBy step allowed s t :=
  ⟨[l], fun _ member => List.mem_singleton.mp member ▸ may, execute_cons.mpr ⟨t, moved, rfl⟩⟩

theorem ReachesBy.trans (first : ReachesBy step allowed s t) (rest : ReachesBy step allowed t u) :
    ReachesBy step allowed s u := by
  obtain ⟨ls, may, run⟩ := first
  obtain ⟨ks, might, more⟩ := rest
  refine ⟨ls ++ ks, fun l member => ?_, execute_append.mpr ⟨t, run, more⟩⟩
  exact (List.mem_append.mp member).elim (may l) (might l)

/-- Where an invariant holds a goal can be reached by going down in rank. -/
theorem reaches_goal {inv goal : S → Prop} (rank : S → Nat)
    (headway : ∀ s, inv s → ¬ goal s → ∃ t, ReachesBy step allowed s t ∧ inv t ∧ rank t < rank s) (start : inv s) :
    ∃ t, ReachesBy step allowed s t ∧ inv t ∧ goal t := by
  induction ranked : rank s using Nat.strongRecOn generalizing s with
  | ind n ih =>
    by_cases there : goal s
    · exact ⟨s, .refl step allowed s, start, there⟩
    · obtain ⟨t, first, still, lower⟩ := headway s start there
      obtain ⟨u, rest, last, reached⟩ := ih (rank t) (ranked ▸ lower) still rfl
      exact ⟨u, first.trans rest, last, reached⟩

end MinimalVm.Semantics
