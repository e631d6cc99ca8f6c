import MinimalVm.Liveness.Running
import MinimalVm.Semantics.Patience

/-! How long a process takes to stop.

Once the signal has come nothing is waited for but the host, and only with the
report that is being sent. So a host that takes what it is offered after a number
of polls holds the process up for no more of them.
-/

set_option autoImplicit false

namespace MinimalVm.Liveness

open MinimalVm.Semantics

section
variable {σ : Type} {w : AsyncWrite σ} {patience : σ → Nat}

/-! ## A report on its way out -/

theorem pollWriteAll_costs (patient : w.Patient patience) (writer : σ) (left : Bytes) :
    (pollWriteAll w writer left).1.Costs (patience writer) (patience (pollWriteAll w writer left).2.2) := by
  fun_induction pollWriteAll w writer left with
  | case1 => exact .ready (Nat.le_refl _)
  | case2 writer left some writer' polled =>
    have costs := patient.writes writer left
    rw [polled] at costs
    exact ⟨costs.le, fun _ => costs.waits rfl⟩
  | case3 writer left some error writer' polled | case4 writer left some n writer' polled none =>
    have costs := patient.writes writer left
    rw [polled] at costs
    exact .ready costs.le
  | case5 writer left some n writer' polled nonzero ih =>
    have costs := patient.writes writer left
    rw [polled] at costs
    exact ih.after costs.le

theorem pollFlush_costs (patient : w.Patient patience) (writer : σ) :
    (pollFlush w writer).1.Costs (patience writer) (patience (pollFlush w writer).2.2) := by
  have costs := patient.flushes writer
  unfold pollFlush
  split
  · rename_i writer' polled
    rw [polled] at costs
    exact ⟨costs.le, fun _ => costs.waits rfl⟩
  · rename_i error writer' polled
    rw [polled] at costs
    exact .ready costs.le
  · rename_i writer' polled
    rw [polled] at costs
    exact .ready costs.le

theorem pollNewline_costs (patient : w.Patient patience) (writer : σ) (left : Bytes) :
    (pollNewline w writer left).1.Costs (patience writer) (patience (pollNewline w writer left).2.2) := by
  have costs := pollWriteAll_costs patient writer left
  unfold pollNewline
  split
  · rename_i left' writer' polled
    rw [polled] at costs
    exact ⟨costs.le, fun _ => costs.waits rfl⟩
  · rename_i error left' writer' polled
    rw [polled] at costs
    exact .ready costs.le
  · rename_i left' writer' polled
    rw [polled] at costs
    exact (pollFlush_costs patient writer').after costs.le

theorem Sending.poll_costs (patient : w.Patient patience) (this : Sending) (writer : σ) :
    (this.poll w writer).1.Costs (patience writer) (patience (this.poll w writer).2.2) := by
  cases this with
  | newline left => exact pollNewline_costs patient writer left
  | flush => exact pollFlush_costs patient writer
  | line left =>
    have costs := pollWriteAll_costs patient writer left
    simp only [Sending.poll]
    split
    · rename_i left' writer' polled
      rw [polled] at costs
      exact ⟨costs.le, fun _ => costs.waits rfl⟩
    · rename_i error left' writer' polled
      rw [polled] at costs
      exact .ready costs.le
    · rename_i left' writer' polled
      rw [polled] at costs
      exact (pollNewline_costs patient writer' [10]).after costs.le

theorem resumeReport_costs (patient : w.Patient patience) (cpu : CpuSample) (writer : σ) (sending : Sending) :
    (resumeReport w cpu writer sending).outcome.Costs (patience writer)
      (patience (resumeReport w cpu writer sending).writer) := by
  have costs := sending.poll_costs patient writer
  unfold resumeReport
  split
  · rename_i sending' writer' polled
    rw [polled] at costs
    exact ⟨costs.le, fun _ => costs.waits rfl⟩
  · rename_i error sending' writer' polled
    rw [polled] at costs
    exact .ready costs.le
  · rename_i sending' writer' polled
    rw [polled] at costs
    exact .ready costs.le

theorem beginReport_costs (patient : w.Patient patience) (toJson : Status → Except IoError Bytes) (guests : Guests)
    (cpu : CpuSample) (writer : σ) :
    (beginReport w toJson guests cpu writer).outcome.Costs (patience writer)
      (patience (beginReport w toJson guests cpu writer).writer) := by
  unfold beginReport
  split
  · exact .ready (Nat.le_refl _)
  · split
    · exact .ready (Nat.le_refl _)
    · exact resumeReport_costs patient _ writer _

/-! ## The loop, and the process -/

/-- How many polls the loop can still be held up for, if it is told to shut down. -/
def Reporter.pollsLeft (patience : σ → Nat) (this : Reporter σ) : Nat :=
  match this.phase with
  | .returned _ => 0
  | .initial | .sending _ _ | .resting _ => patience this.writer + 1

variable {toJson : Status → Except IoError Bytes}

theorem Reporter.pollsLeft_le (patience : σ → Nat) (r : Reporter σ) : r.pollsLeft patience ≤ patience r.writer + 1 := by
  obtain ⟨writer, phase, events⟩ := r
  cases phase with
  | initial | sending cpu sending | resting cpu => exact Nat.le_refl _
  | returned result => exact Nat.zero_le _

variable (w toJson) in
theorem pollsLeft_shutdown {reported : Reported σ} {before : Nat}
    (costs : reported.outcome.Costs before (patience reported.writer)) (events : List ReportEvent) :
    (proceed w toJson events reported [.shutdown]).pollsLeft patience ≤ before := by
  obtain ⟨_ | error | _, sending, cpu, writer⟩ := reported
  · exact costs.waits rfl
  · exact Nat.zero_le before
  · exact Nat.zero_le before

/-- Each poll of a loop that is told to shut down brings it nearer to its end. -/
theorem poll_left (patient : w.Patient patience) {p : LivenessAgent σ} {r r' : Reporter σ} {polled : LoopPoll}
    (signalled : p.terminated = true) (moved : r.poll w toJson (p.reporterPoll polled) = some r') :
    1 + r'.pollsLeft patience ≤ r.pollsLeft patience := by
  obtain ⟨writer, phase, events⟩ := r
  cases polled with
  | first guest guests slept =>
    simp only [LivenessAgent.reporterPoll, LivenessAgent.selects, signalled, if_true] at moved
    cases phase with
    | initial =>
      simp only [Reporter.poll] at moved
      split at moved
      · cases moved
        exact Nat.le_add_left 1 _
      · -- A loop that has not been polled yet begins its first report all the same.
        rename_i cpu sampled
        cases moved
        have less := pollsLeft_shutdown w toJson (beginReport_costs patient toJson guests cpu writer)
          (events ++ [.sampled guest, .began guests])
        exact (Nat.add_comm 1 _).trans_le (Nat.add_le_add_right less 1)
    | sending cpu sending | resting cpu | returned result => cases moved
  | again slept =>
    simp only [LivenessAgent.reporterPoll, LivenessAgent.selects, signalled, if_true] at moved
    cases phase with
    | initial | returned result => cases moved
    | sending cpu sending =>
      cases moved
      have less := pollsLeft_shutdown w toJson (resumeReport_costs patient cpu writer sending) events
      exact (Nat.add_comm 1 _).trans_le (Nat.add_le_add_right less 1)
    | resting cpu =>
      -- Between two reports the signal is found at once.
      cases moved
      exact Nat.le_add_left 1 _

def ProcessStep.isReport : ProcessStep → Bool
  | report _ => true
  | install _ | dial _ | connect _ _ | terminate => false

def LivenessAgent.pollsLeft (patience : σ → Nat) (this : LivenessAgent σ) : Nat :=
  (this.stage.reporter?.map (Reporter.pollsLeft patience)).getD 0

/-- A process that reports and has been told to stop. -/
def LivenessAgent.Stopping (this : LivenessAgent σ) : Prop :=
  this.terminated = true ∧ ∃ r, this.stage = .reporting r

theorem LivenessAgent.Stopping.step {p p' : LivenessAgent σ} {step : ProcessStep} (patient : w.Patient patience)
    (stopping : p.Stopping) (moved : p.step w toJson step = some p') :
    p'.Stopping ∧ step.isReport.toNat + p'.pollsLeft patience ≤ p.pollsLeft patience := by
  obtain ⟨signalled, r, reporting⟩ := stopping
  cases step with
  | install answer | dial answers | connect writable error =>
    simp only [LivenessAgent.step, reporting] at moved
    cases moved
  | report polled =>
    simp only [LivenessAgent.step, reporting] at moved
    obtain ⟨r', polls, rfl⟩ := Option.map_eq_some_iff.mp moved
    refine ⟨⟨signalled, r', rfl⟩, ?_⟩
    simp only [pollsLeft, reporting]
    exact poll_left patient signalled polls
  | terminate =>
    simp only [LivenessAgent.step] at moved
    split at moved
    · cases moved
    · cases moved
      rw [reporting]
      refine ⟨⟨rfl, r, rfl⟩, ?_⟩
      simp only [pollsLeft, reporting]
      exact (Nat.zero_add _).le

theorem LivenessAgent.stopped {p : LivenessAgent σ} (stopping : p.Stopping) (none : p.pollsLeft patience = 0)
    (orderly : Orderly p) : p.exit? = some (.code 0) ∨ p.exit? = some (.code 1) ∧ Unused p := by
  have unused := orderly.unused
  obtain ⟨connection, stage, terminated, events⟩ := p
  obtain ⟨-, ⟨writer, phase, shown⟩, rfl⟩ := stopping
  cases phase with
  | initial | sending cpu sending | resting cpu => cases none
  | returned result =>
    cases result with
    | ok _ => exact .inl rfl
    | error error => exact .inr ⟨rfl, unused rfl⟩

end

/-- A process that reports when it is told to stop, and in front of a host that
makes it wait only so often, is polled no more than once beyond that, and has
exited by then. It exits in success, unless it has not come to a report. -/
theorem stops_in_time {σ : Type} (w : AsyncWrite σ) (toJson : Status → Except IoError Bytes) (patience : σ → Nat)
    (patient : w.Patient patience) (connection : σ) (steps later : List ProcessStep) (p q : LivenessAgent σ)
    (r : Reporter σ) (run : execute (LivenessAgent.step w toJson) (.new connection) steps = some p)
    (heard : .terminated ∈ p.events) (reporting : p.stage = .reporting r)
    (more : execute (LivenessAgent.step w toJson) p later = some q) :
    later.countP ProcessStep.isReport ≤ patience r.writer + 1 ∧
      (patience r.writer < later.countP ProcessStep.isReport →
        q.exit? = some (.code 0) ∨ q.exit? = some (.code 1) ∧ Unused q) := by
  have stopping : p.Stopping := ⟨(orderly_run run).heard.mpr heard, r, reporting⟩
  have stops : q.Stopping :=
    invariant_execute LivenessAgent.Stopping (fun _ _ _ before moved => (before.step patient moved).1) stopping more
  have left := countP_rank ProcessStep.isReport (LivenessAgent.pollsLeft patience)
    (fun _ _ _ before moved => (LivenessAgent.Stopping.step patient before moved).1)
    (fun _ _ _ before moved => (LivenessAgent.Stopping.step patient before moved).2) stopping more
  -- Only a loop that has returned has no polls left.
  have most := r.pollsLeft_le patience
  have start : p.pollsLeft patience = r.pollsLeft patience := by simp only [LivenessAgent.pollsLeft, reporting]; rfl
  refine ⟨by omega, fun long => ?_⟩
  have whole : execute (LivenessAgent.step w toJson) (.new connection) (steps ++ later) = some q :=
    execute_append.mpr ⟨p, run, more⟩
  have none : q.pollsLeft patience = 0 := by omega
  exact LivenessAgent.stopped stops none (orderly_run whole)

def ProcessEvent.isTerminated : ProcessEvent → Bool
  | terminated => true
  | reports _ => false

theorem ProcessEvent.terminated_mem {events : List ProcessEvent} (seen : events.any isTerminated = true) :
    terminated ∈ events := by
  obtain ⟨event, member, same⟩ := List.any_eq_true.mp seen
  cases event with
  | terminated => exact member
  | reports event => cases same

/-- A host that makes a number of polls wait, and then takes byte after byte. -/
def reluctant : AsyncWrite Nat where
  pollWrite waits offered :=
    (if waits = 0 then .ready (.ok ⟨min 1 offered.length, Nat.min_le_right 1 _⟩) else .pending, waits - 1)
  pollFlush waits := (if waits = 0 then .ready (.ok ()) else .pending, waits - 1)
  pollShutdown waits := (.ready (.ok ()), waits)

theorem reluctant_patient : reluctant.Patient id where
  writes waits offered := by
    by_cases none : waits = 0
    · simp only [reluctant, none, if_true]
      exact .ready (Nat.le_refl 0)
    · exact ⟨Nat.sub_le waits 1, fun _ => Nat.sub_one_lt none⟩
  flushes waits := by
    by_cases none : waits = 0
    · simp only [reluctant, none, if_true]
      exact .ready (Nat.le_refl 0)
    · exact ⟨Nat.sub_le waits 1, fun _ => Nat.sub_one_lt none⟩

/-- The signal comes while the first report waits for the host. -/
def interrupted : List ProcessStep :=
  [.install (.ok ()), .dial ⟨.ok (), .ok (), .ok (), .ok ()⟩, .connect (.ready (.ok ())) (.ok none),
    .report (.first healthy (constantly healthy) []), .terminate]

theorem stops_in_time_reluctant :
    ∃ (p q : LivenessAgent Nat) (r : Reporter Nat), p.stage = .reporting r ∧ r.writer = 2 ∧ p.exit? = none ∧
      execute (LivenessAgent.step reluctant terse) p (List.replicate 3 (.report (.again []))) = some q ∧
      (q.exit? = some (.code 0) ∨ q.exit? = some (.code 1) ∧ Unused q) := by
  let later : List ProcessStep := List.replicate 3 (.report (.again []))
  have told : (execute (LivenessAgent.step reluctant terse) (.new 3) interrupted).map
      (fun p => (p.stage.reporter?.map Reporter.writer, p.exit?, p.events.any ProcessEvent.isTerminated)) =
      some (some 2, none, true) := by decide +kernel
  have completes : (execute (LivenessAgent.step reluctant terse) (.new 3) (interrupted ++ later)).isSome = true := by
    decide +kernel
  obtain ⟨p, run, seen⟩ := Option.map_eq_some_iff.mp told
  obtain ⟨writer, seen⟩ := Prod.mk.inj seen
  obtain ⟨running, signalled⟩ := Prod.mk.inj seen
  obtain ⟨r, reports, waits⟩ := Option.map_eq_some_iff.mp writer
  obtain ⟨q, whole⟩ := Option.isSome_iff_exists.mp completes
  obtain ⟨same, first, more⟩ := execute_append.mp whole
  cases run.symm.trans first
  have reporting := Stage.reporter?_some reports
  have stops := stops_in_time reluctant terse id reluctant_patient 3 interrupted later p q r run
    (ProcessEvent.terminated_mem signalled) reporting more
  refine ⟨p, q, r, reporting, waits, running, more, stops.2 ?_⟩
  show r.writer < 3
  rw [waits]
  exact Nat.lt_succ_self 2

end MinimalVm.Liveness
