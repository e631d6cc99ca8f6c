import MinimalVm.Liveness.Report

/-! What the loop of reports does between two waits, one thing at a time.

A poll may complete several reports. An invariant is kept by every poll if it is
kept by the few things that a poll consists of.
-/

set_option autoImplicit false

namespace MinimalVm.Liveness

open MinimalVm.Semantics

/-- Where the loop stands after a poll of a report, before it selects. -/
def Reported.reporter {σ : Type} (events : List ReportEvent) (this : Reported σ) : Reporter σ :=
  match this.outcome with
  | .pending => ⟨this.writer, .sending this.cpu this.sending, events⟩
  | .ready (.error error) => ⟨this.writer, .returned (.ok ()), events ++ error.events⟩
  | .ready (.ok ()) => ⟨this.writer, .resting this.cpu, events⟩

/-- The things that a poll of the loop consists of keep a property. -/
structure Preserved {σ : Type} (w : AsyncWrite σ) (toJson : Status → Except IoError Bytes) (P : Reporter σ → Prop) :
    Prop where
  unsampled {writer : σ} {events : List ReportEvent} {guest : Guest} {error : MetricsError} :
    P ⟨writer, .initial, events⟩ → cpuSample guest = .error error →
      P ⟨writer, .returned (.error error), events ++ [.sampled guest]⟩
  samples {writer : σ} {events : List ReportEvent} {guest : Guest} {cpu : CpuSample} :
    P ⟨writer, .initial, events⟩ → cpuSample guest = .ok cpu → P ⟨writer, .resting cpu, events ++ [.sampled guest]⟩
  uncollected {writer : σ} {events : List ReportEvent} {cpu cpu' : CpuSample} {guests : Guests} {error : MetricsError} :
    P ⟨writer, .resting cpu, events⟩ → collect guests cpu = (.error error, cpu') →
      P ⟨writer, .returned (.ok ()), events ++ [.began guests]⟩
  unserialized {writer : σ} {events : List ReportEvent} {cpu cpu' : CpuSample} {guests : Guests} {status : Status}
      {cause : IoError} :
    P ⟨writer, .resting cpu, events⟩ → collect guests cpu = (.ok status, cpu') → toJson status = .error cause →
      P ⟨writer, .returned (.ok ()), events ++ [.began guests] ++ [.sendFailed (.serializing cause)]⟩
  begins {writer : σ} {events : List ReportEvent} {cpu cpu' : CpuSample} {guests : Guests} {status : Status}
      {line : Bytes} :
    P ⟨writer, .resting cpu, events⟩ → collect guests cpu = (.ok status, cpu') → toJson status = .ok line →
      P ⟨writer, .sending cpu' (.line line), events ++ [.began guests]⟩
  waits {writer writer' : σ} {events : List ReportEvent} {cpu : CpuSample} {sending sending' : Sending} :
    P ⟨writer, .sending cpu sending, events⟩ → sending.poll w writer = (.pending, sending', writer') →
      P ⟨writer', .sending cpu sending', events⟩
  fails {writer writer' : σ} {events : List ReportEvent} {cpu : CpuSample} {sending sending' : Sending}
      {error : SendError} :
    P ⟨writer, .sending cpu sending, events⟩ → sending.poll w writer = (.ready (.error error), sending', writer') →
      P ⟨writer', .returned (.ok ()), events ++ [.sendFailed error]⟩
  sent {writer writer' : σ} {events : List ReportEvent} {cpu : CpuSample} {sending sending' : Sending} :
    P ⟨writer, .sending cpu sending, events⟩ → sending.poll w writer = (.ready (.ok ()), sending', writer') →
      P ⟨writer', .resting cpu, events⟩
  shuts {writer : σ} {events : List ReportEvent} {cpu : CpuSample} :
    P ⟨writer, .resting cpu, events⟩ → P ⟨writer, .returned (.ok ()), events ++ [.shutdown]⟩

namespace Preserved

variable {σ : Type} {w : AsyncWrite σ} {toJson : Status → Except IoError Bytes} {P : Reporter σ → Prop}
  {events : List ReportEvent} {cpu : CpuSample} {writer : σ}

theorem resume {sending : Sending} (kept : Preserved w toJson P) (before : P ⟨writer, .sending cpu sending, events⟩) :
    P ((resumeReport w cpu writer sending).reporter events) := by
  unfold resumeReport
  split
  · exact kept.waits before ‹_›
  · exact kept.fails before ‹_›
  · exact kept.sent before ‹_›

theorem begin (kept : Preserved w toJson P) (before : P ⟨writer, .resting cpu, events⟩) (guests : Guests) :
    P ((beginReport w toJson guests cpu writer).reporter (events ++ [.began guests])) := by
  unfold beginReport
  split
  · rename_i error cpu' collected
    dsimp only [Reported.reporter, ReportError.events]
    rw [List.append_nil]
    exact kept.uncollected before collected
  · rename_i status cpu' collected
    split
    · exact kept.unserialized before collected ‹_›
    · exact kept.resume (kept.begins before collected ‹_›)

theorem proceed {reported : Reported σ} (kept : Preserved w toJson P) (before : P (reported.reporter events))
    (selects : List Select) : P (proceed w toJson events reported selects) := by
  induction selects generalizing events reported with
  | nil =>
    obtain ⟨_ | error | _, sending, cpu, writer⟩ := reported
    · exact before
    · exact before
    · exact before
  | cons select selects ih =>
    obtain ⟨_ | error | _, sending, cpu, writer⟩ := reported
    · exact before
    · exact before
    · cases select with
      | shutdown => exact kept.shuts before
      | slept guests => exact ih (kept.begin before guests)

theorem poll {r r' : Reporter σ} {polled : ReporterPoll} (kept : Preserved w toJson P) (before : P r)
    (moved : r.poll w toJson polled = some r') : P r' := by
  obtain ⟨writer, phase, events⟩ := r
  cases polled with
  | first guest guests selects =>
    cases phase with
    | initial =>
      simp only [Reporter.poll] at moved
      split at moved
      · cases moved
        exact kept.unsampled before ‹_›
      · cases moved
        have began := kept.begin (kept.samples before ‹_›) guests
        rw [List.append_assoc] at began
        exact kept.proceed began selects
    | sending cpu sending | resting cpu | returned result => cases moved
  | again selects =>
    cases phase with
    | sending cpu sending =>
      cases moved
      exact kept.proceed (kept.resume before) selects
    | resting cpu =>
      cases moved
      have rested : P (Reported.reporter events ⟨.ready (.ok ()), .flush, cpu, writer⟩) := before
      exact kept.proceed rested selects
    | initial | returned result => cases moved

theorem run {polls : List ReporterPoll} {r : Reporter σ} (kept : Preserved w toJson P) (start : P (.new writer))
    (run : execute (Reporter.poll w toJson) (.new writer) polls = some r) : P r :=
  invariant_execute P (fun _ _ _ before moved => kept.poll before moved) start run

end Preserved

end MinimalVm.Liveness
