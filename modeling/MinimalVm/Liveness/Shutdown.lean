import MinimalVm.Liveness.Outcome

/-! Shutting the loop of reports down.

The shutdown is polled where the loop selects, which is between two reports. A
report that is being sent is not selected against anything, so that a host that
reads no more keeps the loop.
-/

set_option autoImplicit false

namespace MinimalVm.Liveness

open MinimalVm.Semantics

namespace Phase

def isResting : Phase → Bool
  | resting _ => true
  | initial | sending _ _ | returned _ => false

/-- The loop waits, for the host or for the next report. -/
def isParked : Phase → Bool
  | sending _ _ | resting _ => true
  | initial | returned _ => false

end Phase

/-- A writer in front of a host that reads no more. -/
def stalled {σ : Type} : AsyncWrite σ where
  pollWrite writer _ := (.pending, writer)
  pollFlush writer := (.pending, writer)
  pollShutdown writer := (.pending, writer)

section
variable {σ : Type}

theorem pollWriteAll_stalled (writer : σ) {left : Bytes} (some : left ≠ []) :
    pollWriteAll stalled writer left = (.pending, left, writer) := by
  rw [pollWriteAll, if_neg some]
  rfl

theorem pollNewline_stalled (writer : σ) (left : Bytes) :
    ∃ sending, pollNewline stalled writer left = (.pending, sending, writer) := by
  by_cases none : left = []
  · subst none
    refine ⟨.flush, ?_⟩
    rw [pollNewline, pollWriteAll, if_pos rfl]
    rfl
  · refine ⟨.newline left, ?_⟩
    rw [pollNewline, pollWriteAll_stalled writer none]

theorem Sending.poll_stalled (this : Sending) (writer : σ) :
    ∃ sending, this.poll stalled writer = (.pending, sending, writer) := by
  cases this with
  | line left =>
    by_cases none : left = []
    · subst none
      obtain ⟨sending, polled⟩ := pollNewline_stalled writer [10]
      refine ⟨sending, ?_⟩
      rw [Sending.poll, pollWriteAll, if_pos rfl]
      exact polled
    · refine ⟨.line left, ?_⟩
      rw [Sending.poll, pollWriteAll_stalled writer none]
  | newline left => exact pollNewline_stalled writer left
  | flush => exact ⟨.flush, rfl⟩

/-- The next poll after the shutdown returns, without a look at the writer and
whatever that would answer from then on. -/
def Reporter.Prompt (toJson : Status → Except IoError Bytes) (this : Reporter σ) : Prop :=
  ∀ (later : AsyncWrite σ) (selects : List Select), ∃ next,
    this.poll later toJson (.again (.shutdown :: selects)) = some next ∧ next.phase = .returned (.ok ()) ∧
      next.writer = this.writer

theorem Reporter.prompt_iff (toJson : Status → Except IoError Bytes) {r : Reporter σ}
    (parked : r.phase.isParked = true) : r.Prompt toJson ↔ r.phase.isResting = true := by
  obtain ⟨writer, phase, events⟩ := r
  cases phase with
  | initial => cases parked
  | returned result => cases parked
  | resting cpu =>
    refine ⟨fun _ => rfl, fun _ later selects => ?_⟩
    exact ⟨⟨writer, .returned (.ok ()), events ++ [.shutdown]⟩, rfl, rfl, rfl⟩
  | sending cpu sending =>
    refine ⟨fun prompt => ?_, fun impossible => nomatch impossible⟩
    obtain ⟨next, moved, returned, -⟩ := prompt stalled []
    obtain ⟨left, polled⟩ := sending.poll_stalled writer
    simp only [Reporter.poll, resumeReport, polled] at moved
    cases moved
    cases returned

/-- A run in which the shutdown is prompt wherever the loop is parked is one in
which it is parked between reports only. -/
theorem shutdown_prompt (w : AsyncWrite σ) (toJson : Status → Except IoError Bytes) (writer : σ)
    (polls : List ReporterPoll) :
    Always (Reporter.poll w toJson) (fun r => r.phase.isParked = true → r.Prompt toJson) (.new writer) polls ↔
      Always (Reporter.poll w toJson) (fun r => r.phase.isParked = true → r.phase.isResting = true) (.new writer)
        polls := by
  constructor
  · intro prompt first rest r split run parked
    exact (Reporter.prompt_iff toJson parked).mp (prompt first rest r split run parked)
  · intro rests first rest r split run parked
    exact (Reporter.prompt_iff toJson parked).mpr (rests first rest r split run parked)

end

/-- A host that does not read the first report holds up the shutdown. -/
theorem shutdown_held_up :
    ∃ r next : Reporter Unit,
      execute (Reporter.poll stalled terse) (.new ()) [.first healthy (constantly healthy) []] = some r ∧
        r.poll stalled terse (.again [.shutdown]) = some next ∧ r.phase.isParked = true ∧
          next.phase.isParked = true := by
  have completes : (execute (Reporter.poll stalled terse) (.new ()) [.first healthy (constantly healthy) []]).bind
      (fun r => (r.poll stalled terse (.again [.shutdown])).map
        fun next => (r.phase.isParked, next.phase.isParked)) = some (true, true) := by decide +kernel
  obtain ⟨r, run, polled⟩ := Option.bind_eq_some_iff.mp completes
  obtain ⟨next, moved, ended⟩ := Option.map_eq_some_iff.mp polled
  exact ⟨r, next, run, moved, Prod.mk.inj ended⟩

end MinimalVm.Liveness
