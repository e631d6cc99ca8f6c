import MinimalVm.Semantics.Execution
import MinimalVm.Semantics.Polling

/-! How often one has to wait.

A patient writer makes one wait only so often, whatever it is asked for. What
has nothing else to wait for then comes to its end in as many polls.
-/

set_option autoImplicit false

namespace MinimalVm.Semantics

/-- A poll that has to wait uses patience up, and no poll brings any back. -/
structure Poll.Costs {A : Type} (polled : Poll A) (before after : Nat) : Prop where
  le : after ≤ before
  waits : polled = .pending → after < before

theorem Poll.Costs.ready {A : Type} {value : A} {before after : Nat} (le : after ≤ before) :
    (Poll.ready value).Costs before after where
  le := le
  waits impossible := by cases impossible

theorem Poll.Costs.after {A : Type} {polled : Poll A} {first before after : Nat} (costs : polled.Costs before after)
    (earlier : before ≤ first) : polled.Costs first after where
  le := Nat.le_trans costs.le earlier
  waits pending := Nat.lt_of_lt_of_le (costs.waits pending) earlier

/-- How long something takes that a poll has left in this state. -/
structure AsyncWrite.Patient {σ : Type} (w : AsyncWrite σ) (patience : σ → Nat) : Prop where
  writes : ∀ writer offered,
    (w.pollWrite writer offered).1.Costs (patience writer) (patience (w.pollWrite writer offered).2)
  flushes : ∀ writer, (w.pollFlush writer).1.Costs (patience writer) (patience (w.pollFlush writer).2)

/-- Steps of a kind, each of which uses up some of a rank, are no more than that. -/
theorem countP_rank {S L : Type} {step : S → L → Option S} {inv : S → Prop} {s t : S} {ls : List L} (kind : L → Bool)
    (rank : S → Nat) (preserved : ∀ s l t, inv s → step s l = some t → inv t)
    (uses : ∀ s l t, inv s → step s l = some t → (kind l).toNat + rank t ≤ rank s) (start : inv s)
    (run : execute step s ls = some t) : ls.countP kind + rank t ≤ rank s := by
  induction ls generalizing s with
  | nil =>
    cases run
    simp
  | cons l ls ih =>
    obtain ⟨u, moved, rest⟩ := execute_cons.mp run
    have first := uses s l u start moved
    have later := ih (preserved s l u start moved) rest
    rw [List.countP_cons]
    cases counts : kind l <;> simp [counts] at first ⊢ <;> omega

end MinimalVm.Semantics
