import MinimalVm.Agent.Moves

/-! Kinds of events in what a run shows.

A property of a run asks which kinds of events it shows and in which order.
Most turns are settled by their form: a send shows the message it enqueues or
its own failure, and a signal is nothing but a signal.
-/

set_option autoImplicit false

namespace MinimalVm.Agent

open MinimalVm.Semantics MinimalVm.Protocol MinimalVm.Io

def Shows (kind : Event → Bool) (events : List Event) : Prop := ∃ event ∈ events, kind event = true

variable {kind : Event → Bool}

theorem shows_of_any {events : List Event} (some : events.any kind = true) : Shows kind events :=
  List.any_eq_true.mp some

theorem not_shows_of_any {events : List Event} (none : events.any kind = false) : ¬ Shows kind events :=
  fun shown => Bool.eq_false_iff.mp none (List.any_eq_true.mpr shown)

@[simp] theorem shows_nil : ¬ Shows kind [] := by simp [Shows]

@[simp] theorem shows_cons (event : Event) (rest : List Event) :
    Shows kind (event :: rest) ↔ kind event = true ∨ Shows kind rest := by simp [Shows]

@[simp] theorem shows_append (first rest : List Event) :
    Shows kind (first ++ rest) ↔ Shows kind first ∨ Shows kind rest := by
  simp [Shows, or_and_right, exists_or]

@[simp] theorem shows_signalled (signals : List Signal) :
    Shows kind (signals.map .signalled) ↔ ∃ signal ∈ signals, kind (.signalled signal) = true := by
  constructor
  · rintro ⟨event, member, shown⟩
    obtain ⟨signal, sent, rfl⟩ := List.mem_map.mp member
    exact ⟨signal, sent, shown⟩
  · rintro ⟨signal, sent, shown⟩
    exact ⟨_, List.mem_map_of_mem sent, shown⟩

theorem shows_send (enqueued : ∀ msg, kind (.enqueued msg) = false)
    (sendFailed : ∀ msg error, kind (.sendFailed msg error) = false) (send : Send) (polled : SendPoll) :
    ¬ Shows kind (send.events polled) := by
  rintro ⟨event, member, shown⟩
  rcases List.mem_append.mp member with taken | failed
  · obtain ⟨msg, -, rfl⟩ := List.mem_map.mp taken
    rw [enqueued] at shown
    cases shown
  · cases polled with
    | pending takes => cases failed
    | sent => cases failed
    | failed takes error =>
      cases List.mem_singleton.mp failed
      rw [sendFailed] at shown
      cases shown

theorem shows_malformed (readable : ∀ task cause, kind (.malformed task cause) = false) (task : Task)
    (error : RecvError) : ¬ Shows kind (malformed task error) := by
  cases error with
  | parse cause => simp [malformed, readable]
  | read cause => exact shows_nil

theorem Overhears.shows {ρ : Type} [MessageReader ρ] {output : Output} {rx : RxLocal ρ} {events : List Event}
    (readable : ∀ task cause, kind (.malformed task cause) = false) (overhears : Overhears output rx events) :
    ¬ Shows kind events := by
  cases overhears with
  | nothing => exact shows_nil
  | malformed received => simp [readable]

end MinimalVm.Agent
