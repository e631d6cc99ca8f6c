import MinimalVm.Liveness.Report

/-! How the loop of reports ends.

The loop fails only before its first report. Afterwards a failure to collect and
a failure to send come out of a report alike, and either of them ends the loop in
success.
-/

set_option autoImplicit false

namespace MinimalVm.Liveness

open MinimalVm.Semantics

namespace Phase

def hasSucceeded : Phase → Bool
  | returned (.ok ()) => true
  | returned (.error _) | initial | sending _ _ | resting _ => false

theorem hasSucceeded_iff {this : Phase} : this.hasSucceeded = true ↔ this = .returned (.ok ()) := by
  obtain _ | _ | _ | _ | _ := this <;> simp [hasSucceeded]

end Phase

def Guests.complete (this : Guests) : Bool :=
  (readProcStat this.cpu).isOk && (Liveness.memory this.memory).isOk && (Liveness.swap this.swap).isOk &&
    (Liveness.disks this.disks).isOk

namespace ReportEvent

/-- A collection for a report fails. -/
def incomplete : ReportEvent → Bool
  | began guests => !guests.complete
  | sampled _ | sendFailed _ | shutdown => false

def fails : ReportEvent → Bool
  | sampled guest => !(readProcStat guest).isOk
  | began guests => !guests.complete
  | sendFailed _ | shutdown => false

/-- A send fails or the shutdown completes. -/
def ends : ReportEvent → Bool
  | sendFailed _ | shutdown => true
  | sampled _ | began _ => false

end ReportEvent

open ReportEvent (incomplete fails ends)

theorem incomplete_of_fails {events : List ReportEvent} (none : events.any fails = false) :
    events.any incomplete = false := by
  rw [List.any_eq_false] at none ⊢
  intro event member
  have succeeds := none event member
  cases event with
  | began guests => exact succeeds
  | sampled guest | sendFailed error | shutdown => exact Bool.false_ne_true

theorem collect_complete (guests : Guests) (cpu : CpuSample) : (collect guests cpu).1.isOk = guests.complete := by
  unfold collect sample Guests.complete
  cases readProcStat guests.cpu with
  | error error => rfl
  | ok second =>
    cases memory guests.memory with
    | error error => rfl
    | ok memory =>
      cases swap guests.swap with
      | error error => rfl
      | ok swap => cases disks guests.disks <;> rfl

section
variable {σ : Type} {w : AsyncWrite σ} {toJson : Status → Except IoError Bytes} {events : List ReportEvent}

/-- Nothing that would end the loop has been seen. -/
def Calm (events : List ReportEvent) : Prop := events.any fails = false ∧ events.any ends = false

def Reported.Fits (events : List ReportEvent) (this : Reported σ) : Prop :=
  match this.outcome with
  | .ready (.error (.metrics _)) => events.any incomplete = true ∧ events.any ends = false
  | .pending | .ready (.error (.send _)) | .ready (.ok ()) => Calm events

theorem resumeReport_fits (calm : Calm events) (cpu : CpuSample) (writer : σ) (sending : Sending) :
    (resumeReport w cpu writer sending).Fits events := by
  unfold resumeReport
  split <;> exact calm

theorem beginReport_fits (calm : Calm events) (guests : Guests) (cpu : CpuSample) (writer : σ) :
    (beginReport w toJson guests cpu writer).Fits (events ++ [.began guests]) := by
  have collected := collect_complete guests cpu
  unfold beginReport
  split
  · rename_i error cpu' fails
    rw [fails] at collected
    have failed : guests.complete = false := collected.symm
    exact ⟨by simp [incomplete, failed], by simp [calm.2, ends]⟩
  · rename_i status cpu' succeeds
    rw [succeeds] at collected
    have completed : guests.complete = true := collected.symm
    have still : Calm (events ++ [.began guests]) := ⟨by simp [calm.1, fails, completed], by simp [calm.2, ends]⟩
    split
    · exact still
    · exact resumeReport_fits still cpu' writer _

/-- What has been seen in each phase. -/
def Reporter.Told (this : Reporter σ) : Prop :=
  match this.phase with
  | .initial => this.events = []
  | .sending _ _ | .resting _ => Calm this.events
  | .returned (.error _) =>
    this.events.any fails = true ∧ this.events.any ends = false ∧ this.events.any incomplete = false
  | .returned (.ok ()) =>
    this.events.any incomplete = true ∧ this.events.any ends = false ∨
      this.events.any fails = false ∧ this.events.any ends = true

theorem failed_told {error : ReportError} {sending : Sending} {cpu : CpuSample} {writer : σ}
    (fits : Reported.Fits events ⟨.ready (.error error), sending, cpu, writer⟩) :
    Reporter.Told ⟨writer, .returned (.ok ()), events ++ error.events⟩ := by
  cases error with
  | metrics cause =>
    left
    dsimp only [ReportError.events]
    rw [List.append_nil]
    exact fits
  | send cause =>
    obtain ⟨succeeds, -⟩ : Calm events := fits
    right
    dsimp only [ReportError.events]
    rw [List.any_append, List.any_append, succeeds]
    exact ⟨rfl, Bool.or_true _⟩

theorem proceed_told {reported : Reported σ} (fits : reported.Fits events) (selects : List Select) :
    (proceed w toJson events reported selects).Told := by
  induction selects generalizing events reported with
  | nil =>
    obtain ⟨outcome, sending, cpu, writer⟩ := reported
    obtain _ | error | _ := outcome
    · exact fits
    · exact failed_told fits
    · exact fits
  | cons select selects ih =>
    obtain ⟨outcome, sending, cpu, writer⟩ := reported
    obtain _ | error | _ := outcome
    · exact fits
    · exact failed_told fits
    · cases select with
      | shutdown =>
        obtain ⟨succeeds, -⟩ : Calm events := fits
        right
        dsimp only [proceed]
        rw [List.any_append, List.any_append, succeeds]
        exact ⟨rfl, Bool.or_true _⟩
      | slept guests => exact ih (beginReport_fits fits guests cpu writer)

theorem Reporter.Told.poll {r r' : Reporter σ} {polled : ReporterPoll} (told : r.Told)
    (moved : r.poll w toJson polled = some r') : r'.Told := by
  obtain ⟨writer, phase, events⟩ := r
  cases polled with
  | first guest guests selects =>
    cases phase with
    -- The first poll fails at once if the sample cannot be taken.
    | initial =>
      have none : events = [] := told
      subst none
      simp only [Reporter.poll, cpuSample] at moved
      cases reads : readProcStat guest with
      | error error =>
        rw [reads] at moved
        cases moved
        exact ⟨by simp [fails, reads, Except.isOk, Except.toBool], by simp [ends], by simp [incomplete]⟩
      | ok first =>
        rw [reads] at moved
        cases moved
        have calm : Calm [.sampled guest] :=
          ⟨by simp [fails, reads, Except.isOk, Except.toBool], by simp [ends]⟩
        exact proceed_told (beginReport_fits calm guests ⟨first⟩ writer) selects
    | sending cpu sending => cases moved
    | resting cpu => cases moved
    | returned result => cases moved
  | again selects =>
    cases phase with
    | initial => cases moved
    | sending cpu sending =>
      cases moved
      exact proceed_told (resumeReport_fits told cpu writer sending) selects
    | resting cpu =>
      cases moved
      have fits : Reported.Fits events ⟨.ready (.ok ()), .flush, cpu, writer⟩ := told
      exact proceed_told fits selects
    | returned result => cases moved

theorem told_run {writer : σ} {polls : List ReporterPoll} {r : Reporter σ}
    (run : execute (Reporter.poll w toJson) (.new writer) polls = some r) : r.Told := by
  have start : (Reporter.new writer).Told := (rfl : (Reporter.new writer).events = [])
  exact invariant_execute Reporter.Told (fun _ _ _ before moved => before.poll moved) start run

end

def healthy : Guest :=
  { bound with
    readToString := fun path =>
      if path = "/proc/stat" then .ok "cpu  100 0 200 1000 100 0 0 0 0 0\n".toList
      else if path = "/proc/meminfo" then
        .ok "MemTotal: 400 kB\nMemAvailable: 100 kB\nSwapTotal: 0 kB\nSwapFree: 0 kB\n".toList
      else bound.readToString path }

/-- A guest that has no more files to open. -/
def exhausted : Guest :=
  { healthy with readToString := fun _ => .error ⟨"Too many open files in system (os error 23)"⟩ }

def constantly (guest : Guest) : Guests := ⟨guest, guest, guest, guest, guest⟩

/-- At any time of a run, the loop has failed just if a collection has, and has
succeeded just if a send has failed or the shutdown has completed, unless a
collection for a report has failed. -/
theorem report_outcome {σ : Type} (w : AsyncWrite σ) (toJson : Status → Except IoError Bytes) (writer : σ)
    (polls : List ReporterPoll) (r : Reporter σ)
    (run : execute (Reporter.poll w toJson) (.new writer) polls = some r) :
    (((∃ error, r.phase = .returned (.error error)) ↔ r.events.any fails = true) ∧
        (r.phase = .returned (.ok ()) ↔ r.events.any ends = true)) ↔
      r.events.any incomplete = false := by
  have told := told_run run
  obtain ⟨writer, phase, events⟩ := r
  have failed : events.any fails = false → events.any incomplete = false := incomplete_of_fails
  cases phase with
  | initial =>
    have none : events = [] := told
    simp [none]
  | sending cpu sending | resting cpu =>
    obtain ⟨succeeds, goes⟩ : Calm events := told
    simp [succeeds, goes, failed succeeds]
  | returned result =>
    cases result with
    | error error =>
      obtain ⟨fails, goes, complete⟩ : _ ∧ _ ∧ _ := told
      simp only [fails, goes, complete]
      simp
    | ok value =>
      rcases told with ⟨some, goes⟩ | ⟨none, ended⟩
      · simp only [some, goes]
        simp
      · simp only [none, ended, failed none]
        simp

/-- A status need not say much to be sent. -/
def terse (_ : Status) : Except IoError Bytes := .ok [123, 125]

theorem report_outcome_shutdown :
    ∃ r, execute (Reporter.poll scripted terse) (.new [.ready (.ok 2), .ready (.ok 1)])
        [.first healthy (constantly healthy) [.shutdown]] = some r ∧
      r.phase = .returned (.ok ()) ∧ r.events.any ends = true := by
  have completes : (execute (Reporter.poll scripted terse) (.new [.ready (.ok 2), .ready (.ok 1)])
      [.first healthy (constantly healthy) [.shutdown]]).map
      (fun r => (r.phase.hasSucceeded, r.events.any incomplete)) = some (true, false) := by decide +kernel
  obtain ⟨r, run, ended⟩ := Option.map_eq_some_iff.mp completes
  obtain ⟨succeeded, complete⟩ := Prod.mk.inj ended
  have returned := Phase.hasSucceeded_iff.mp succeeded
  exact ⟨r, run, returned, ((report_outcome _ _ _ _ r run).mpr complete).2.mp returned⟩

/-- A guest that runs out of files while a report is collected seems to the loop
like a host that has gone. -/
theorem report_failure_hidden :
    ∃ r, execute (Reporter.poll scripted terse) (.new [])
        [.first healthy { constantly healthy with memory := exhausted } []] = some r ∧
      r.phase = .returned (.ok ()) ∧ r.events.any fails = true ∧ r.events.any ends = false := by
  have completes : (execute (Reporter.poll scripted terse) (.new [])
      [.first healthy { constantly healthy with memory := exhausted } []]).map
      (fun r => (r.phase.hasSucceeded, r.events.any fails, r.events.any ends)) = some (true, true, false) := by
    decide +kernel
  obtain ⟨r, run, ended⟩ := Option.map_eq_some_iff.mp completes
  obtain ⟨succeeded, failed⟩ := Prod.mk.inj ended
  exact ⟨r, run, Phase.hasSucceeded_iff.mp succeeded, Prod.mk.inj failed⟩

end MinimalVm.Liveness
