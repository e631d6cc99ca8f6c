import MinimalVm.Liveness.Looping
import MinimalVm.Liveness.Shutdown
import MinimalVm.Semantics.Trace

/-! The liveness agent from its start to its exit.

The agent listens for the signal that ends it before it dials the host, and the
signal is kept until the loop of reports looks for it. The connection is made
once, and nothing but the loop of reports writes to it.
-/

set_option autoImplicit false

namespace MinimalVm.Liveness

open MinimalVm.Semantics

/-! ## Dialling -/

structure OsError where
  rawOsError : Option Int32
  text : String
  deriving DecidableEq, Repr

/-- The error number of a connect that is under way. -/
def einprogress : Int32 := 115

inductive ConnectError where
  | io (cause : OsError)
  | initiating (cause : OsError)
  | waiting (cause : OsError)
  | failed (cause : OsError)
  deriving DecidableEq, Repr

/-- An error with its causes, as it is logged. -/
def ConnectError.message : ConnectError → String
  | io cause => cause.text
  | initiating cause => "initiating vsock connect: " ++ cause.text
  | waiting cause => "waiting for vsock connect to complete: " ++ cause.text
  | failed cause => "vsock connect failed: " ++ cause.text

/-- What the system answers until the connect is under way. -/
structure Dial where
  socket : Except OsError Unit
  setNonblocking : Except OsError Unit
  connect : Except OsError Unit
  fromStd : Except OsError Unit

def initiate : Except OsError Unit → Except ConnectError Unit
  | .ok () => .ok ()
  -- The outcome of a connect in flight is asked for later.
  | .error cause => if cause.rawOsError = some einprogress then .ok () else .error (.initiating cause)

def dial (answers : Dial) : Except ConnectError Unit := do
  answers.socket.mapError .io
  answers.setNonblocking.mapError .io
  initiate answers.connect
  answers.fromStd.mapError .io

def takeError : Except OsError (Option OsError) → Except ConnectError Unit
  | .ok none => .ok ()
  | .ok (some cause) => .error (.failed cause)
  | .error cause => .error (.io cause)

/-- One poll of the connection. A socket that is writable is connected or has failed. -/
def pollConnect (writable : Poll (Except OsError Unit)) (error : Except OsError (Option OsError)) :
    Poll (Except ConnectError Unit) :=
  match writable with
  | .pending => .pending
  | .ready (.error cause) => .ready (.error (.waiting cause))
  | .ready (.ok ()) => .ready (takeError error)

/-! ## The process -/

inductive Stage (σ : Type) where
  | starting
  | listening
  | connecting
  | reporting (reporter : Reporter σ)
  | unconnected (error : ConnectError)
  | panicked
  | killed

inductive Exit where
  | code (status : Nat)
  | signal
  deriving DecidableEq, Repr

/-- A signal for which nobody listens yet kills the process. -/
def Stage.terminated {σ : Type} : Stage σ → Stage σ
  | starting => killed
  | stage => stage

def Stage.exit? {σ : Type} : Stage σ → Option Exit
  | starting | listening | connecting => none
  | reporting reporter =>
    match reporter.phase with
    | .returned (.ok ()) => some (.code 0)
    | .returned (.error _) => some (.code 1)
    | .initial | .sending _ _ | .resting _ => none
  | unconnected _ => some (.code 1)
  | panicked => some (.code 101)
  | killed => some .signal

inductive ProcessEvent where
  | terminated
  | reports (event : ReportEvent)

/-- A poll of the loop, by what the sleeps between reports find. -/
inductive LoopPoll where
  | first (guest : Guest) (guests : Guests) (slept : List Guests)
  | again (slept : List Guests)

inductive ProcessStep where
  | install (answer : Except OsError Unit)
  | dial (answers : Dial)
  | connect (writable : Poll (Except OsError Unit)) (error : Except OsError (Option OsError))
  | report (polled : LoopPoll)
  | terminate

structure LivenessAgent (σ : Type) where
  connection : σ
  stage : Stage σ
  terminated : Bool
  events : List ProcessEvent

namespace LivenessAgent

variable {σ : Type}

def new (connection : σ) : LivenessAgent σ := ⟨connection, .starting, false, []⟩

def exit? (this : LivenessAgent σ) : Option Exit := this.stage.exit?

/-- What the loop finds when it selects. A signal that comes during a poll is
as good as one that comes after it, with the loop at rest in between. -/
def selects (this : LivenessAgent σ) (slept : List Guests) : List Select :=
  if this.terminated then [.shutdown] else slept.map .slept

def reporterPoll (this : LivenessAgent σ) : LoopPoll → ReporterPoll
  | .first guest guests slept => .first guest guests (this.selects slept)
  | .again slept => .again (this.selects slept)

def reported (this : LivenessAgent σ) (before after : Reporter σ) : LivenessAgent σ :=
  { this with
    stage := .reporting after
    events := this.events ++ (after.events.drop before.events.length).map .reports }

section
variable (w : AsyncWrite σ) (toJson : Status → Except IoError Bytes)

def step (this : LivenessAgent σ) : ProcessStep → Option (LivenessAgent σ)
  | .install answer =>
    match this.stage with
    | .starting =>
      match answer with
      | .ok () => some { this with stage := .listening }
      | .error _ => some { this with stage := .panicked }
    | _ => none
  | .dial answers =>
    match this.stage with
    | .listening =>
      match Liveness.dial answers with
      | .ok () => some { this with stage := .connecting }
      | .error error => some { this with stage := .unconnected error }
    | _ => none
  | .connect writable error =>
    match this.stage with
    | .connecting =>
      match pollConnect writable error with
      | .pending => some this
      | .ready (.ok ()) => some { this with stage := .reporting (.new this.connection) }
      | .ready (.error error) => some { this with stage := .unconnected error }
    | _ => none
  | .report polled =>
    match this.stage with
    | .reporting reporter => (reporter.poll w toJson (this.reporterPoll polled)).map (this.reported reporter)
    | _ => none
  | .terminate =>
    match this.exit? with
    | some _ => none
    | none =>
      some { this with stage := this.stage.terminated, terminated := true, events := this.events ++ [.terminated] }

end
end LivenessAgent

/-! ## Polls of the loop -/

section
variable {σ : Type} {w : AsyncWrite σ} {toJson : Status → Except IoError Bytes} {events : List ReportEvent}

theorem shown_grows (start : List ReportEvent) : Preserved w toJson fun r : Reporter σ => start <+: r.events where
  unsampled before _ := before.trans (List.prefix_append _ _)
  samples before _ := before.trans (List.prefix_append _ _)
  uncollected before _ := before.trans (List.prefix_append _ _)
  unserialized before _ _ := before.trans ((List.prefix_append _ _).trans (List.prefix_append _ _))
  begins before _ _ := before.trans (List.prefix_append _ _)
  waits before _ := before
  fails before _ := before.trans (List.prefix_append _ _)
  sent before _ := before
  shuts before := before.trans (List.prefix_append _ _)

def Reporter.Untouched (connection : σ) (this : Reporter σ) : Prop :=
  this.writer = connection ∧ ∀ guests, .began guests ∉ this.events

/-- A loop that ends in failure has not come to its first report. -/
def Reporter.FailsEarly (connection : σ) (this : Reporter σ) : Prop :=
  match this.phase with
  | .initial | .returned (.error _) => this.Untouched connection
  | .sending _ _ | .resting _ | .returned (.ok ()) => True

theorem fails_early (connection : σ) : Preserved w toJson (Reporter.FailsEarly connection) where
  unsampled before _ := ⟨before.1, fun guests => by simpa using before.2 guests⟩
  samples _ _ := trivial
  uncollected _ _ := trivial
  unserialized _ _ _ := trivial
  begins _ _ _ := trivial
  waits _ _ := trivial
  fails _ _ := trivial
  sent _ _ := trivial
  shuts _ := trivial

variable (w toJson events) in
theorem proceed_shutdown (reported : Reported σ) :
    ∃ more, (proceed w toJson events reported [.shutdown]).events = events ++ more ∧
      ∀ guests, .began guests ∉ more := by
  obtain ⟨outcome, sending, cpu, writer⟩ := reported
  obtain _ | error | _ := outcome
  · exact ⟨[], (List.append_nil events).symm, fun _ => List.not_mem_nil⟩
  · exact ⟨error.events, rfl, fun guests => by cases error <;> simp [ReportError.events]⟩
  · exact ⟨[.shutdown], rfl, by simp⟩

theorem proceed_slept (slept : List Guests) {reported : Reported σ} (none : .shutdown ∉ events) :
    .shutdown ∉ (proceed w toJson events reported (slept.map .slept)).events := by
  induction slept generalizing events reported with
  | nil =>
    obtain ⟨outcome, sending, cpu, writer⟩ := reported
    obtain _ | error | _ := outcome
    · exact none
    · cases error <;> simpa [proceed, ReportError.events] using none
    · exact none
  | cons guests slept ih =>
    obtain ⟨outcome, sending, cpu, writer⟩ := reported
    obtain _ | error | _ := outcome
    · exact none
    · cases error <;> simpa [proceed, ReportError.events] using none
    · exact ih (by simpa using none)

/-- After the signal a poll begins no report, unless it is the first one. -/
def Last (before after : Reporter σ) : Prop :=
  ∃ more, after.events = before.events ++ more ∧
    ((∀ guests, .began guests ∉ more) ∨ before.phase = .initial ∧ ∃ guest guests rest,
      more = .sampled guest :: .began guests :: rest ∧ ∀ other, .began other ∉ rest)

theorem poll_terminated {p : LivenessAgent σ} {r r' : Reporter σ} {polled : LoopPoll} (signalled : p.terminated = true)
    (moved : r.poll w toJson (p.reporterPoll polled) = some r') : Last r r' := by
  obtain ⟨writer, phase, events⟩ := r
  cases polled with
  | first guest guests slept =>
    simp only [LivenessAgent.reporterPoll, LivenessAgent.selects, signalled, if_true] at moved
    cases phase with
    | initial =>
      simp only [Reporter.poll] at moved
      split at moved
      · cases moved
        exact ⟨[.sampled guest], rfl, .inl fun guests => by simp⟩
      · rename_i cpu sampled
        cases moved
        obtain ⟨rest, shown, quiet⟩ := proceed_shutdown w toJson
          (events ++ [.sampled guest, .began guests]) (beginReport w toJson guests cpu writer)
        exact ⟨_, shown.trans (List.append_assoc _ _ _), .inr ⟨rfl, guest, guests, rest, rfl, quiet⟩⟩
    | sending cpu sending | resting cpu | returned result => cases moved
  | again slept =>
    simp only [LivenessAgent.reporterPoll, LivenessAgent.selects, signalled, if_true] at moved
    cases phase with
    | initial | returned result => cases moved
    | sending cpu sending | resting cpu =>
      cases moved
      obtain ⟨more, shown, quiet⟩ := proceed_shutdown w toJson events _
      exact ⟨more, shown, .inl quiet⟩

theorem poll_unheard {p : LivenessAgent σ} {r r' : Reporter σ} {polled : LoopPoll} (none : p.terminated = false)
    (moved : r.poll w toJson (p.reporterPoll polled) = some r') (before : .shutdown ∉ r.events) :
    .shutdown ∉ r'.events := by
  obtain ⟨writer, phase, events⟩ := r
  cases polled with
  | first guest guests slept =>
    simp only [LivenessAgent.reporterPoll, LivenessAgent.selects, none, Bool.false_eq_true, if_false] at moved
    cases phase with
    | initial =>
      simp only [Reporter.poll] at moved
      split at moved
      · cases moved
        simpa using before
      · cases moved
        exact proceed_slept slept (by simpa using before)
    | sending cpu sending | resting cpu | returned result => cases moved
  | again slept =>
    simp only [LivenessAgent.reporterPoll, LivenessAgent.selects, none, Bool.false_eq_true, if_false] at moved
    cases phase with
    | initial | returned result => cases moved
    | sending cpu sending | resting cpu =>
      cases moved
      exact proceed_slept slept before

end

/-! ## Steps of the process -/

def ProcessEvent.report? : ProcessEvent → Option ReportEvent
  | terminated => none
  | reports event => some event

def shownOf (events : List ProcessEvent) : List ReportEvent := events.filterMap ProcessEvent.report?

def Stage.reporter? {σ : Type} : Stage σ → Option (Reporter σ)
  | reporting reporter => some reporter
  | starting | listening | connecting | unconnected _ | panicked | killed => none

section
variable {σ : Type} {w : AsyncWrite σ} {toJson : Status → Except IoError Bytes}

theorem shownOf_append (first rest : List ProcessEvent) :
    shownOf (first ++ rest) = shownOf first ++ shownOf rest := List.filterMap_append

theorem shownOf_reports (events : List ReportEvent) : shownOf (events.map .reports) = events := by
  induction events with
  | nil => rfl
  | cons event events ih => exact congrArg (event :: ·) ih

theorem mem_shownOf {events : List ProcessEvent} {event : ReportEvent} (member : .reports event ∈ events) :
    event ∈ shownOf events := List.mem_filterMap.mpr ⟨_, member, rfl⟩

theorem Stage.reporter?_some {stage : Stage σ} {r : Reporter σ} (running : stage.reporter? = some r) :
    stage = .reporting r := by
  cases stage with
  | reporting reporter => exact congrArg reporting (Option.some.inj running)
  | starting | listening | connecting | unconnected error | panicked | killed => cases running

theorem Stage.reporter?_terminated (stage : Stage σ) : stage.terminated.reporter? = stage.reporter? := by
  cases stage <;> rfl

/-- Everything that can happen to the process at once. -/
inductive LivenessMove (w : AsyncWrite σ) (toJson : Status → Except IoError Bytes) :
    LivenessAgent σ → LivenessAgent σ → Prop
  | prepares {p : LivenessAgent σ} (stage : Stage σ) : p.stage.reporter? = none → stage.reporter? = none →
      LivenessMove w toJson p { p with stage }
  | connects {p : LivenessAgent σ} : p.stage.reporter? = none →
      LivenessMove w toJson p { p with stage := .reporting (.new p.connection) }
  | reports {p : LivenessAgent σ} {r r' : Reporter σ} (polled : LoopPoll) : p.stage = .reporting r →
      r.poll w toJson (p.reporterPoll polled) = some r' → LivenessMove w toJson p (p.reported r r')
  | terminates {p : LivenessAgent σ} : LivenessMove w toJson p
      { p with stage := p.stage.terminated, terminated := true, events := p.events ++ [.terminated] }

theorem LivenessAgent.step_move {p p' : LivenessAgent σ} {step : ProcessStep} (moved : p.step w toJson step = some p') :
    LivenessMove w toJson p p' := by
  obtain ⟨connection, stage, terminated, events⟩ := p
  -- Each step needs its own stage. Elsewhere it is not possible.
  cases step with
  | install answer =>
    cases stage with
    | starting =>
      cases answer with
      | ok _ =>
        cases moved
        exact .prepares .listening rfl rfl
      | error cause =>
        cases moved
        exact .prepares .panicked rfl rfl
    | listening | connecting | reporting reporter | unconnected error | panicked | killed => cases moved
  | dial answers =>
    cases stage with
    | listening =>
      simp only [LivenessAgent.step] at moved
      split at moved
      · cases moved
        exact .prepares .connecting rfl rfl
      · cases moved
        exact .prepares (.unconnected _) rfl rfl
    | starting | connecting | reporting reporter | unconnected error | panicked | killed => cases moved
  | connect writable error =>
    cases stage with
    | connecting =>
      simp only [LivenessAgent.step] at moved
      split at moved
      · cases moved
        exact .prepares .connecting rfl rfl
      · cases moved
        exact .connects rfl
      · cases moved
        exact .prepares (.unconnected _) rfl rfl
    | starting | listening | reporting reporter | unconnected error | panicked | killed => cases moved
  | report polled =>
    cases stage with
    | reporting reporter =>
      obtain ⟨reporter', polls, rfl⟩ := Option.map_eq_some_iff.mp moved
      exact .reports polled rfl polls
    | starting | listening | connecting | unconnected error | panicked | killed => cases moved
  | terminate =>
    simp only [LivenessAgent.step] at moved
    split at moved
    · cases moved
    · cases moved
      exact .terminates

/-! ## What always holds -/

def LastReport (events : List ProcessEvent) : Prop :=
  ∀ before guests after, events = before ++ .reports (.began guests) :: after → .terminated ∈ before →
    ∀ other, .reports (.began other) ∉ before

theorem lastReport_unheard {events : List ProcessEvent} (none : .terminated ∉ events) : LastReport events := by
  rintro before guests after rfl heard
  exact absurd (List.mem_append_left _ heard) none

theorem LastReport.append_quiet {events more : List ProcessEvent} (before : LastReport events)
    (quiet : ∀ guests, .reports (.began guests) ∉ more) : LastReport (events ++ more) := by
  intro first guests rest split heard
  rcases occurrence_append split with ⟨middle, earlier, -⟩ | ⟨middle, -, later⟩
  · exact before first guests middle earlier heard
  · exact absurd (by simp [later]) (quiet guests)

theorem lastReport_first {events more : List ProcessEvent} {guests : Guests}
    (none : ∀ other, .reports (.began other) ∉ events) (quiet : ∀ other, .reports (.began other) ∉ more) :
    LastReport (events ++ .reports (.began guests) :: more) := by
  intro first guests' rest split _ other member
  rcases occurrence_append split with ⟨middle, rfl, -⟩ | ⟨middle, rfl, later⟩
  · exact none other (List.mem_append_left _ member)
  · rcases List.cons_eq_append_iff.mp later with ⟨rfl, -⟩ | ⟨between, -, same⟩
    · rw [List.append_nil] at member
      exact none other member
    · exact quiet guests' (by simp [same])

/-- What the process has seen of its loop. -/
def LivenessAgent.Follows (this : LivenessAgent σ) : Prop :=
  match this.stage.reporter? with
  | none => shownOf this.events = []
  | some r => shownOf this.events = r.events ∧ r.Told ∧ r.FailsEarly this.connection ∧
      (.shutdown ∈ r.events → this.terminated = true)

structure Orderly (p : LivenessAgent σ) : Prop where
  heard : p.terminated = true ↔ .terminated ∈ p.events
  last : LastReport p.events
  follows : p.Follows

theorem orderly_new (connection : σ) : Orderly (.new connection) where
  heard := by simp [LivenessAgent.new]
  last := lastReport_unheard List.not_mem_nil
  follows := rfl

theorem LivenessAgent.reported_events {p : LivenessAgent σ} {r r' : Reporter σ} {more : List ReportEvent}
    (shown : r'.events = r.events ++ more) : (p.reported r r').events = p.events ++ more.map .reports := by
  rw [reported, shown, List.drop_left]

theorem Orderly.reports {p : LivenessAgent σ} {r r' : Reporter σ} {polled : LoopPoll} (before : Orderly p)
    (running : p.stage = .reporting r) (moved : r.poll w toJson (p.reporterPoll polled) = some r') :
    Orderly (p.reported r r') := by
  have follows := before.follows
  simp only [LivenessAgent.Follows, running, Stage.reporter?] at follows
  obtain ⟨seen, told, early, heeds⟩ := follows
  obtain ⟨more, shown⟩ : r.events <+: r'.events := (shown_grows r.events).poll (List.prefix_refl _) moved
  have events := LivenessAgent.reported_events (p := p) shown.symm
  refine ⟨?_, ?_, ?_⟩
  · rw [events]
    refine before.heard.trans ⟨List.mem_append_left _, fun member => ?_⟩
    exact (List.mem_append.mp member).resolve_right (by simp)
  · -- Nothing is asked of the reports until the signal has come.
    rcases signalled : p.terminated with _ | _
    · refine lastReport_unheard fun member => ?_
      rw [events] at member
      have heard := (List.mem_append.mp member).resolve_right (by simp)
      exact absurd (before.heard.mpr heard) (by simp [signalled])
    · obtain ⟨more', shown', last⟩ := poll_terminated signalled moved
      rw [LivenessAgent.reported_events shown']
      rcases last with quiet | ⟨initial, guest, guests, rest, rfl, quiet⟩
      · exact before.last.append_quiet (by simpa using quiet)
      · rw [List.map_cons, List.map_cons, List.append_cons]
        refine lastReport_first (fun other member => ?_) (by simpa using quiet)
        have none : r.events = [] := by simpa [Reporter.Told, initial] using told
        have known : .began other ∈ shownOf p.events := mem_shownOf (by simpa using member)
        rw [seen, none] at known
        cases known
  · refine ⟨?_, told.poll moved, (fails_early p.connection).poll early moved, fun shut => ?_⟩
    · rw [events, shownOf_append, seen, shownOf_reports, shown]
    · rcases signalled : p.terminated with _ | _
      · have unheeded : .shutdown ∉ r.events := fun member => absurd (heeds member) (by simp [signalled])
        exact absurd shut (poll_unheard signalled moved unheeded)
      · exact signalled

theorem Orderly.step {p p' : LivenessAgent σ} (before : Orderly p) (move : LivenessMove w toJson p p') :
    Orderly p' := by
  obtain ⟨heard, last, follows⟩ := before
  cases move with
  | prepares stage idle still =>
    refine ⟨heard, last, ?_⟩
    simp only [LivenessAgent.Follows, idle, still] at follows ⊢
    exact follows
  | connects idle =>
    refine ⟨heard, last, ?_⟩
    simp only [LivenessAgent.Follows, idle] at follows
    exact ⟨follows, rfl, ⟨rfl, fun _ => List.not_mem_nil⟩, nofun⟩
  | reports polled running moved => exact Orderly.reports ⟨heard, last, follows⟩ running moved
  | terminates =>
    refine ⟨by simp, last.append_quiet (by simp), ?_⟩
    simp only [LivenessAgent.Follows, Stage.reporter?_terminated, shownOf_append] at follows ⊢
    split at follows
    · exact (List.append_nil _).trans follows
    · obtain ⟨seen, told, early, -⟩ := follows
      exact ⟨(List.append_nil _).trans seen, told, early, fun _ => trivial⟩

theorem orderly_run {connection : σ} {steps : List ProcessStep} {p : LivenessAgent σ}
    (run : execute (LivenessAgent.step w toJson) (.new connection) steps = some p) : Orderly p :=
  invariant_execute Orderly (fun _ _ _ before moved => before.step (LivenessAgent.step_move moved))
    (orderly_new connection) run

/-! ## How the process exits -/

/-- The loop has been told to end, or something has come between. -/
def Excused (events : List ProcessEvent) : Prop :=
  .terminated ∈ events ∨ (∃ error, .reports (.sendFailed error) ∈ events) ∨
    ∃ guests, .reports (.began guests) ∈ events ∧ guests.complete = false

theorem mem_of_shown {events : List ProcessEvent} {event : ReportEvent} (member : event ∈ shownOf events) :
    .reports event ∈ events := by
  obtain ⟨seen, there, same⟩ := List.mem_filterMap.mp member
  cases seen with
  | terminated => cases same
  | reports other =>
    cases same
    exact there

theorem Stage.succeeded {stage : Stage σ} (exited : stage.exit? = some (.code 0)) :
    ∃ r, stage = .reporting r ∧ r.phase = .returned (.ok ()) := by
  cases stage with
  | reporting r =>
    obtain ⟨writer, _ | _ | _ | error | _, events⟩ := r
    case returned.ok => exact ⟨_, rfl, rfl⟩
    all_goals cases exited
  | starting | listening | connecting | unconnected error | panicked | killed => cases exited

theorem Stage.failed_reporting {r : Reporter σ} (exited : (Stage.reporting r).exit? = some (.code 1)) :
    ∃ error, r.phase = .returned (.error error) := by
  obtain ⟨writer, _ | _ | _ | error | _, events⟩ := r
  case returned.error => exact ⟨error, rfl⟩
  all_goals cases exited

theorem Orderly.excused {p : LivenessAgent σ} {r : Reporter σ} (before : Orderly p) (running : p.stage = .reporting r)
    (returned : r.phase = .returned (.ok ())) : Excused p.events := by
  have follows := before.follows
  simp only [LivenessAgent.Follows, running, Stage.reporter?] at follows
  obtain ⟨seen, told, -, heeds⟩ := follows
  simp only [Reporter.Told, returned] at told
  rcases told with ⟨incomplete, -⟩ | ⟨-, ended⟩
  · obtain ⟨event, member, fails⟩ := List.any_eq_true.mp incomplete
    cases event with
    | began guests =>
      exact .inr (.inr ⟨guests, mem_of_shown (seen ▸ member), by simpa [ReportEvent.incomplete] using fails⟩)
    | sampled guest | sendFailed error | shutdown => exact absurd fails Bool.false_ne_true
  · obtain ⟨event, member, ends⟩ := List.any_eq_true.mp ended
    cases event with
    | sendFailed error => exact .inr (.inl ⟨error, mem_of_shown (seen ▸ member)⟩)
    | shutdown => exact .inl (before.heard.mp (heeds member))
    | sampled guest | began guests => exact absurd ends Bool.false_ne_true

/-- The process has failed without a report and without a byte for the host. -/
def Unused (p : LivenessAgent σ) : Prop :=
  (∀ guests, .reports (.began guests) ∉ p.events) ∧ ∀ r, p.stage = .reporting r → r.writer = p.connection

theorem Orderly.unused {p : LivenessAgent σ} (before : Orderly p) (failed : p.exit? = some (.code 1)) : Unused p := by
  have follows := before.follows
  simp only [LivenessAgent.Follows] at follows
  rcases staged : p.stage.reporter? with _ | r
  · rw [staged] at follows
    refine ⟨fun guests member => ?_, fun r running => ?_⟩
    · have known := mem_shownOf member
      rw [show shownOf p.events = [] from follows] at known
      cases known
    · rw [running] at staged
      cases staged
  · have running : p.stage = .reporting r := Stage.reporter?_some staged
    rw [staged] at follows
    obtain ⟨seen, -, early, -⟩ := follows
    -- Of the loops that have returned only one that has failed exits so.
    obtain ⟨error, ended⟩ := Stage.failed_reporting ((congrArg Stage.exit? running).symm.trans failed)
    obtain ⟨kept, none⟩ : r.Untouched p.connection := by simpa only [Reporter.FailsEarly, ended] using early
    refine ⟨fun guests member => none guests (seen ▸ mem_shownOf member), fun other same => ?_⟩
    cases running.symm.trans same
    exact kept

/-- The loop has returned or waits for the host to take a report. -/
def Stage.Leaves (this : Stage σ) : Prop :=
  this.exit?.isSome = true ∨ ∃ r cpu sending, this = .reporting r ∧ r.phase = .sending cpu sending

theorem leaves_shutdown (events : List ReportEvent) (reported : Reported σ) :
    (Stage.reporting (proceed w toJson events reported [.shutdown])).Leaves := by
  obtain ⟨outcome, sending, cpu, writer⟩ := reported
  obtain _ | error | _ := outcome
  · exact .inr ⟨_, cpu, sending, rfl, rfl⟩
  · exact .inl rfl
  · exact .inl rfl

theorem leaves_terminated {p : LivenessAgent σ} {r r' : Reporter σ} {polled : LoopPoll}
    (signalled : p.terminated = true)
    (moved : r.poll w toJson (p.reporterPoll polled) = some r') : (Stage.reporting r').Leaves := by
  obtain ⟨writer, phase, events⟩ := r
  cases polled with
  | first guest guests slept =>
    simp only [LivenessAgent.reporterPoll, LivenessAgent.selects, signalled, if_true] at moved
    cases phase with
    | initial =>
      simp only [Reporter.poll] at moved
      split at moved
      · cases moved
        exact .inl rfl
      · cases moved
        exact leaves_shutdown _ _
    | sending cpu sending | resting cpu | returned result => cases moved
  | again slept =>
    simp only [LivenessAgent.reporterPoll, LivenessAgent.selects, signalled, if_true] at moved
    cases phase with
    | initial | returned result => cases moved
    | sending cpu sending | resting cpu =>
      cases moved
      exact leaves_shutdown _ _

/-- How a process exits, and what the signal does about it. -/
structure Exits (w : AsyncWrite σ) (toJson : Status → Except IoError Bytes) (p : LivenessAgent σ) : Prop where
  last : LastReport p.events
  succeeds : p.exit? = some (.code 0) → Excused p.events
  fails : p.exit? = some (.code 1) → Unused p
  leaves : .terminated ∈ p.events → ∀ polled p', p.step w toJson (.report polled) = some p' → p'.stage.Leaves

/-- A signal at any time after the process has begun to listen is heeded with
the report that is being sent, or with the first. A process exits in success
only when it has been told to or a report has come to nothing, and in failure
only before it has written to the host. -/
theorem process_exits {σ : Type} (w : AsyncWrite σ) (toJson : Status → Except IoError Bytes) (connection : σ)
    (steps : List ProcessStep) (p : LivenessAgent σ)
    (run : execute (LivenessAgent.step w toJson) (.new connection) steps = some p) : Exits w toJson p := by
  have orderly := orderly_run run
  refine ⟨orderly.last, fun exited => ?_, orderly.unused, fun heard polled p' moved => ?_⟩
  · obtain ⟨r, running, returned⟩ := Stage.succeeded exited
    exact orderly.excused running returned
  · cases staged : p.stage <;> simp only [LivenessAgent.step, staged] at moved
    case reporting r =>
      obtain ⟨r', polls, rfl⟩ := Option.map_eq_some_iff.mp moved
      exact leaves_terminated (orderly.heard.mpr heard) polls
    all_goals cases moved

/-- The signal comes while the host is dialled. -/
def dialling : List ProcessStep :=
  [.install (.ok ()), .dial ⟨.ok (), .ok (), .error ⟨some einprogress, "Operation now in progress (os error 115)"⟩, .ok ()⟩,
    .connect .pending (.ok none), .terminate, .connect (.ready (.ok ())) (.ok none),
    .report (.first healthy (constantly healthy) [constantly healthy])]

theorem process_exits_dialling :
    ∃ p, execute (LivenessAgent.step scripted terse) (.new [.ready (.ok 2), .ready (.ok 1)]) dialling = some p ∧
      p.exit? = some (.code 0) ∧ (p.events.length = 4 ∧ Exits scripted terse p) := by
  have completes : (execute (LivenessAgent.step scripted terse) (.new [.ready (.ok 2), .ready (.ok 1)]) dialling).map
      (fun p => (p.exit?, p.events.length)) = some (some (.code 0), 4) := by decide +kernel
  obtain ⟨p, run, ended⟩ := Option.map_eq_some_iff.mp completes
  obtain ⟨exited, seen⟩ := Prod.mk.inj ended
  exact ⟨p, run, exited, seen, process_exits _ _ _ _ p run⟩

end

end MinimalVm.Liveness
