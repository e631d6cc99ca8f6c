import MinimalVm.Agent.Conversation

/-! What an agent that has ended says of its tasks.

Main waits for all of its tasks and then looks at their results in a fixed order.
It ends well if they all have, and otherwise with the first error in that order,
which is the one that it reports.
-/

set_option autoImplicit false

namespace MinimalVm.Agent

open MinimalVm.Semantics MinimalVm.Protocol MinimalVm.Io

/-! ## How tasks are seen to end -/

def Event.endOf (task : Task) : Event → Option Ending
  | .finished other => if other = task then some (.ok ()) else none
  | .failed other error => if other = task then some (.error error) else none
  | .enqueued _ | .sendFailed _ _ | .spawned _ | .written _ | .signalled _ | .childExited _ _ | .malformed _ _
  | .closeHandled _ _ => none

def endsOf (task : Task) (events : List Event) : List Ending := events.filterMap (Event.endOf task)

def joinOrder : List Task := [.exit, .stdin, .output .stdout, .output .stderr]

/-- The tasks before the one with this error have ended well, those after it somehow. -/
def FirstFailed (error : AgentError) (events : List Event) : Prop :=
  ∃ before task after, joinOrder = before ++ task :: after ∧ (∀ other ∈ before, endsOf other events = [.ok ()]) ∧
    endsOf task events = [.error error] ∧ ∀ other ∈ after, ∃ result, endsOf other events = [result]

def Unstarted (events : List Event) : Prop := ∀ task, endsOf task events = []

def ExitTask.result? : ExitTask → Option Ending
  | .ended result => some result
  | .waiting _ | .sending _ _ => none

def StdinTask.result? : StdinTask → Option Ending
  | .ended result => some result
  | .receiving | .writing _ | .sending _ => none

def OutputTask.result? : OutputTask → Option Ending
  | .ended result => some result
  | .reading _ _ | .sending _ _ | .finishing _ => none

def Tasks.result? (this : Tasks) : Task → Option Ending
  | .main => none
  | .exit => this.exit.result?
  | .stdin => this.stdin.result?
  | .output output => (this.output output).result?

/-- What the ends of tasks come to. -/
def Decided (events : List Event) : Ending → Prop
  | .ok () => ∀ task ∈ joinOrder, endsOf task events = [.ok ()]
  | .error error => Unstarted events ∨ FirstFailed error events

def Phase.Decides (events : List Event) : Phase → Prop
  | .receiving | .spawning _ | .starting _ _ _ _ => Unstarted events
  | .running tasks => ∀ task, endsOf task events = (tasks.result? task).toList
  | .failing error _ => Decided events (.error error)
  | .closing status | .done status => Decided events status

section
variable {task : Task} {events : List Event}

@[simp] theorem endsOf_nil (task : Task) : endsOf task [] = [] := rfl

@[simp] theorem endsOf_append (task : Task) (first rest : List Event) :
    endsOf task (first ++ rest) = endsOf task first ++ endsOf task rest := List.filterMap_append

@[simp] theorem endsOf_finished (other : Task) (rest : List Event) :
    endsOf task (.finished other :: rest) = (if other = task then [.ok ()] else []) ++ endsOf task rest := by
  unfold endsOf
  rw [List.filterMap_cons]
  by_cases same : other = task <;> simp [Event.endOf, same]

@[simp] theorem endsOf_failed (other : Task) (error : AgentError) (rest : List Event) :
    endsOf task (.failed other error :: rest) = (if other = task then [.error error] else []) ++ endsOf task rest := by
  unfold endsOf
  rw [List.filterMap_cons]
  by_cases same : other = task <;> simp [Event.endOf, same]

@[simp] theorem endsOf_written (bytes : Bytes) (rest : List Event) :
    endsOf task (.written bytes :: rest) = endsOf task rest := rfl

@[simp] theorem endsOf_closeHandled (output : Output) (buffer : Bytes) (rest : List Event) :
    endsOf task (.closeHandled output buffer :: rest) = endsOf task rest := rfl

theorem endsOf_quiet (quiet : ∀ event ∈ events, event.endOf task = none) : endsOf task events = [] :=
  List.filterMap_eq_nil_iff.mpr quiet

@[simp] theorem endsOf_signalled (task : Task) (signals : List Signal) : endsOf task (signals.map .signalled) = [] := by
  refine endsOf_quiet fun event member => ?_
  obtain ⟨signal, -, rfl⟩ := List.mem_map.mp member
  rfl

@[simp] theorem endsOf_malformed (task other : Task) (error : RecvError) :
    endsOf task (malformed other error) = [] := by
  cases error <;> rfl

@[simp] theorem endsOf_send (task : Task) (send : Send) (polled : SendPoll) :
    endsOf task (send.events polled) = [] := by
  refine endsOf_quiet fun event member => ?_
  rcases List.mem_append.mp member with said | failed
  · obtain ⟨msg, -, rfl⟩ := List.mem_map.mp said
    rfl
  · cases polled with
    | failed takes error =>
      cases List.mem_singleton.mp failed
      rfl
    | pending takes => cases failed
    | sent => cases failed

end

/-! ## Turns -/

section
variable {ρ : Type} [MessageReader ρ] {rx : RxLocal ρ}

theorem ExitMove.shows {task task' : ExitTask} {turn : ExitTurn} {events : List Event}
    (move : ExitMove rx task turn events task') :
    task.result? = none ∧ ∀ other, endsOf other events = if .exit = other then task'.result?.toList else [] := by
  cases move <;> simp [ExitTask.result?]

theorem StdinMove.shows {task task' : StdinTask} {events : List Event} (move : StdinMove task events task') :
    task.result? = none ∧ ∀ other, endsOf other events = if .stdin = other then task'.result?.toList else [] := by
  cases move <;> simp [StdinTask.result?]

theorem OutputMove.shows {output : Output} {task task' : OutputTask} {events : List Event}
    (move : OutputMove output rx task events task') :
    task.result? = none ∧
      ∀ other, endsOf other events = if .output output = other then task'.result?.toList else [] := by
  have quiet {heard : List Event} (overhears : Overhears output rx heard) (other : Task) : endsOf other heard = [] := by
    cases overhears <;> rfl
  cases move with
  | waits pipe' disabled' same overhears => simp [OutputTask.result?, quiet overhears]
  | data pipe' bytes same overhears => simp [OutputTask.result?, quiet overhears]
  | eof opened overhears => simp [OutputTask.result?, quiet overhears]
  | readFailed error overhears => simp [OutputTask.result?, quiet overhears]
  | close | closeAgain | sends | sent | sendFailed | finishes | finished | finishFailed =>
    simp [OutputTask.result?]

end

/-! ## The join -/

theorem ends_turned {tasks tasks' : Tasks} {events more : List Event} {own : Task} {result : Option Ending}
    (before : ∀ task, endsOf task events = (tasks.result? task).toList) (live : tasks.result? own = none)
    (now : tasks'.result? own = result) (others : ∀ task, own ≠ task → tasks'.result? task = tasks.result? task)
    (shows : ∀ task, endsOf task more = if own = task then result.toList else []) (task : Task) :
    endsOf task (events ++ more) = (tasks'.result? task).toList := by
  rw [endsOf_append, before, shows]
  by_cases same : own = task
  · subst same
    rw [if_pos rfl, live, now]
    rfl
  · rw [if_neg same, List.append_nil, others task same]

theorem Tasks.result?_setOutput (tasks : Tasks) (task : OutputTask) (output : Output) :
    (tasks.setOutput task output).result? (.output output) = task.result? := by
  simp only [result?, setOutput_self]

theorem Tasks.result?_setOutput_other (tasks : Tasks) (task : OutputTask) (output : Output) (other : Task)
    (apart : .output output ≠ other) : (tasks.setOutput task output).result? other = tasks.result? other := by
  cases other with
  | main => rfl
  | exit => simp only [result?, setOutput_exit]
  | stdin => simp only [result?, setOutput_stdin]
  | output other =>
    have different : output ≠ other := fun same => apart (congrArg Task.output same)
    simp only [result?, setOutput_other tasks task different]

theorem joined_ends {tasks : Tasks} {events : List Event} {result : Ending}
    (ends : ∀ task, endsOf task events = (tasks.result? task).toList) (joined : tasks.join = some result) :
    Decided events result := by
  obtain ⟨exit, stdin, stdout, stderr, exits, stdins, stdouts, stderrs, same⟩ := Tasks.join_some joined
  have exited : endsOf .exit events = [exit] := by rw [ends, Tasks.result?, exits]; rfl
  have fed : endsOf .stdin events = [stdin] := by rw [ends, Tasks.result?, stdins]; rfl
  have printed : endsOf (.output .stdout) events = [stdout] := by
    rw [ends, Tasks.result?, Tasks.output, stdouts]; rfl
  have warned : endsOf (.output .stderr) events = [stderr] := by
    rw [ends, Tasks.result?, Tasks.output, stderrs]; rfl
  obtain error | _ := exit
  · cases same
    refine .inr ⟨[], .exit, _, rfl, nofun, exited, ?_⟩
    simp [fed, printed, warned]
  obtain error | _ := stdin
  · cases same
    refine .inr ⟨[.exit], .stdin, _, rfl, ?_, fed, ?_⟩
    · simp [exited]
    · simp [printed, warned]
  obtain error | _ := stdout
  · cases same
    refine .inr ⟨[.exit, .stdin], .output .stdout, _, rfl, ?_, printed, ?_⟩
    · simp [exited, fed]
    · simp [warned]
  obtain error | _ := stderr
  · cases same
    refine .inr ⟨[.exit, .stdin, .output .stdout], .output .stderr, [], rfl, ?_, warned, nofun⟩
    simp [exited, fed, printed]
  cases same
  show ∀ task ∈ joinOrder, _
  simp [joinOrder, exited, fed, printed, warned]

/-! ## The agent -/

section
variable {ρ : Type} [MessageReader ρ]

theorem Unstarted.append {events more : List Event} (before : Unstarted events)
    (quiet : ∀ task, endsOf task more = []) : Unstarted (events ++ more) := fun task => by
  rw [endsOf_append, before, quiet, List.append_nil]

theorem Decided.append_quiet {events more : List Event} {status : Ending} (before : Decided events status)
    (quiet : ∀ task, endsOf task more = []) : Decided (events ++ more) status := by
  have same (task : Task) : endsOf task (events ++ more) = endsOf task events := by
    rw [endsOf_append, quiet, List.append_nil]
  obtain error | _ := status
  · refine before.imp (fun before => before.append quiet) fun ⟨first, task, rest, split, well, failed, ended⟩ => ?_
    refine ⟨first, task, rest, split, fun other member => ?_, (same task).trans failed, fun other member => ?_⟩
    · exact (same other).trans (well other member)
    · exact (ended other member).imp fun result has => (same other).trans has
  · exact fun task member => (same task).trans (before task member)

theorem Phase.Decides.append_quiet {events more : List Event} {phase : Phase} (before : phase.Decides events)
    (quiet : ∀ task, endsOf task more = []) : phase.Decides (events ++ more) := by
  cases phase with
  | receiving | spawning exec | starting lineBuffered process child send => exact Unstarted.append before quiet
  | running tasks =>
    intro task
    rw [endsOf_append, quiet, List.append_nil]
    exact before task
  | failing error send =>
    have decided : Decided events (.error error) := before
    exact decided.append_quiet quiet
  | closing status | done status => exact Decided.append_quiet before quiet

theorem AgentMove.shows {s t : Agent ρ} {action : Action} (move : AgentMove s action t)
    (before : s.phase.Decides s.events) : t.phase.Decides t.events := by
  cases move with
  | receives rx phase => exact before
  | refuses rx error phase =>
    rw [phase] at before
    exact .inl (Unstarted.append before fun task => endsOf_malformed task .main error)
  | disconnected rx phase | spawnFailed debug phase =>
    rw [phase] at before
    exact .inl (Unstarted.append before endsOf_nil)
  | requested rx exec phase =>
    rw [phase] at before
    exact Unstarted.append before endsOf_nil
  | spawned child phase =>
    rw [phase] at before
    exact Unstarted.append before fun task => rfl
  | starts takes phase =>
    rw [phase] at before
    exact Unstarted.append before fun task => endsOf_send task _ _
  | started phase =>
    rw [phase] at before
    intro task
    refine (Unstarted.append before (fun task => endsOf_send task _ _) task).trans ?_
    obtain _ | _ | _ | _ | _ := task <;> rfl
  | startFailed takes error phase =>
    rw [phase] at before
    refine .inl (Unstarted.append before fun task => ?_)
    rw [endsOf_append, endsOf_send, endsOf_signalled]
    rfl
  -- A turn may end its own task, which had not ended, and no other one.
  | @exit tasks turn turned phase allowed stepped =>
    rw [phase] at before
    obtain ⟨live, seen⟩ := (ExitTask.step_move stepped).shows
    refine ends_turned before (show tasks.result? .exit = none from live) rfl (fun task apart => ?_) seen
    obtain _ | _ | _ | _ | _ := task <;> first | rfl | exact absurd rfl apart
  | @stdin tasks turn turned phase stepped =>
    rw [phase] at before
    obtain ⟨live, seen⟩ := (StdinTask.step_move stepped).shows
    refine ends_turned before (show tasks.result? .stdin = none from live) rfl (fun task apart => ?_) seen
    obtain _ | _ | _ | _ | _ := task <;> first | rfl | exact absurd rfl apart
  | @output tasks output turn turned phase stepped =>
    rw [phase] at before
    obtain ⟨ended, seen⟩ := (OutputTask.step_move stepped).shows
    have live : tasks.result? (.output output) = none := ended
    exact ends_turned before live (Tasks.result?_setOutput _ _ _) (Tasks.result?_setOutput_other _ _ _) seen
  -- All tasks have ended by now, and the join picks the error that decides.
  | joined phase all =>
    rw [phase] at before
    exact (joined_ends before all).append_quiet endsOf_nil
  | joinFailed phase some =>
    rw [phase] at before
    exact (joined_ends before some).append_quiet endsOf_nil
  | @reports error send takes phase =>
    rw [phase] at before
    have decided : Decided s.events (.error error) := before
    exact decided.append_quiet fun task => endsOf_send task _ _
  | @reported error send phase =>
    rw [phase] at before
    have decided : Decided s.events (.error error) := before
    exact decided.append_quiet fun task => endsOf_send task _ _
  | @reportFailed error send takes cause phase =>
    rw [phase] at before
    have decided : Decided s.events (.error error) := before
    exact decided.append_quiet fun task => endsOf_send task _ _
  | closes phase =>
    rw [phase] at before
    exact Decided.append_quiet before endsOf_nil
  | childExits status alive => exact before.append_quiet fun task => rfl

end

/-! ## The report -/

/-- The host has been told of the error, or telling it has failed. -/
def Told (events : List Event) (error : AgentError) : Prop :=
  .error ⟨error.message⟩ ∈ logOf events ∨ ∃ cause, .sendFailed (.error ⟨error.message⟩) cause ∈ events

def Phase.Tells (events : List Event) : Phase → Prop
  | .closing (.error error) | .done (.error error) => Told events error
  | .closing (.ok ()) | .done (.ok ()) | .receiving | .spawning _ | .starting _ _ _ _ | .running _ | .failing _ _ => True

theorem Told.append {events : List Event} {error : AgentError} (before : Told events error) (more : List Event) :
    Told (events ++ more) error := by
  rcases before with said | ⟨cause, failed⟩
  · exact .inl (by rw [logOf_append]; exact List.mem_append_left _ said)
  · exact .inr ⟨cause, List.mem_append_left _ failed⟩

theorem Phase.Tells.append {events : List Event} {phase : Phase} (before : phase.Tells events) (more : List Event) :
    phase.Tells (events ++ more) := by
  cases phase with
  | closing status | done status =>
    obtain error | _ := status
    · exact Told.append before more
    · trivial
  | receiving | spawning exec | starting lineBuffered process child send | running tasks | failing error send => trivial

theorem told_over {events : List Event} {error : AgentError} {send : Send} (polled : SendPoll)
    (before : Converses events (.failing error send)) (ended : polled.outcome ≠ .pending) :
    Told (events ++ send.events polled) error := by
  obtain ⟨reports, spoken, -, said⟩ := before
  cases polled with
  | pending takes => exact absurd rfl ended
  | failed takes cause =>
    refine .inr ⟨cause, List.mem_append_right _ (List.mem_append_right _ ?_)⟩
    exact reports ▸ List.mem_singleton_self _
  | sent =>
    refine .inl ?_
    rw [logOf_append, logOf_send, said, List.append_assoc, Send.sent_enqueued, reports]
    exact List.mem_append_right _ (List.mem_singleton_self _)

theorem AgentMove.tells {ρ : Type} [MessageReader ρ] {s t : Agent ρ} {action : Action} (move : AgentMove s action t)
    (speaks : Converses s.events s.phase) (before : s.phase.Tells s.events) : t.phase.Tells t.events := by
  cases move with
  | reported phase =>
    rw [phase] at speaks
    exact told_over .sent speaks nofun
  | reportFailed takes cause phase =>
    rw [phase] at speaks
    exact told_over (.failed takes cause) speaks nofun
  | @closes status phase =>
    rw [phase] at before
    have told : Phase.Tells s.events (.done status) := by
      obtain error | _ := status
      · exact before
      · trivial
    exact told.append []
  | childExits status alive => exact before.append _
  | receives | refuses | disconnected | requested | spawnFailed | spawned | starts | started | startFailed | exit
  | stdin | output | joined | joinFailed | reports => trivial

/-- What the host has heard of the status with which an agent ended. -/
def Reported (events : List Event) : Ending → Prop
  | .ok () => ∀ error, .error error ∉ logOf events
  | .error error =>
    (∃ spoken, logOf events = spoken ++ [.error ⟨error.message⟩] ∧ ∀ other, .error other ∉ spoken) ∨
      (∀ other, .error other ∉ logOf events) ∧ ∃ cause, .sendFailed (.error ⟨error.message⟩) cause ∈ events

theorem Concluded.reports {events : List Event} {status : Ending} (said : Concluded events status)
    (tells : Phase.Tells events (.done status)) : Reported events status := by
  obtain error | _ := status
  · obtain ⟨spoken, shape, same | ⟨same, -⟩⟩ := said
    · exact .inl ⟨spoken, same, shape.no_error⟩
    · have none (other : Error) : .error other ∉ logOf events := same ▸ shape.no_error other
      exact .inr ⟨none, tells.resolve_left (none _)⟩
  · obtain ⟨started, body, same, whole⟩ := said
    exact fun error => same ▸ (Spoken.whole whole).no_error error

/-! ## Every run -/

theorem ends_new {ρ : Type} (reader : ρ) : (Agent.new reader).phase.Decides (Agent.new reader).events := endsOf_nil

theorem ends_run {ρ : Type} [MessageReader ρ] {reader : ρ} {actions : List Action} {s : Agent ρ}
    (run : execute Agent.step (.new reader) actions = some s) : s.phase.Decides s.events :=
  invariant_execute (fun s : Agent ρ => s.phase.Decides s.events)
    (fun _ _ _ before moved => (Agent.step_move moved).shows before) (ends_new reader) run

theorem tells_run {ρ : Type} [MessageReader ρ] {reader : ρ} {actions : List Action} {s : Agent ρ}
    (run : execute Agent.step (.new reader) actions = some s) : s.phase.Tells s.events :=
  (invariant_execute (fun s : Agent ρ => Converses s.events s.phase ∧ s.phase.Tells s.events)
    (fun _ _ _ before moved =>
      have move := Agent.step_move moved
      ⟨move.converses before.1, move.tells before.1 before.2⟩) ⟨converses_new reader, trivial⟩ run).2

/-- An agent ends well if all of its tasks have, and then no error has been
said. Otherwise it ends with the first error of a task, or without having
started any, and this is the error the host hears of last, and the only one,
unless it could not be sent. -/
theorem status_reported {ρ : Type} [MessageReader ρ] (reader : ρ) (actions : List Action) (s : Agent ρ)
    (status : Ending) (run : execute Agent.step (.new reader) actions = some s) (ended : s.phase = .done status) :
    Decided s.events status ∧ Reported s.events status := by
  have ends := ends_run run
  have said := converses_run run
  have tells := tells_run run
  rw [ended] at ends said tells
  exact ⟨ends, Concluded.reports said tells⟩

def Phase.error? : Phase → Option AgentError
  | .done (.error error) => some error
  | .done (.ok ()) | .receiving | .spawning _ | .starting _ _ _ _ | .running _ | .failing _ _ | .closing _ => none

theorem Phase.error?_some {phase : Phase} {error : AgentError} (ended : phase.error? = some error) :
    phase = .done (.error error) := by
  cases phase with
  | done status =>
    obtain other | _ := status
    · exact congrArg (fun error => Phase.done (.error error)) (Option.some.inj ended)
    · cases ended
  | receiving | spawning exec | starting lineBuffered process child send | running tasks | failing other send
  | closing status => cases ended

/-- Both outputs of the child fail, the second one first. -/
def unreadable : List Action :=
  [.receive, .spawn (.ok ⟨7, [.failed ⟨"Input/output error (os error 5)"⟩], [.failed badDescriptor]⟩), .start .sent,
    .output .stderr (.select true false), .output .stdout (.select true false), .childExits 0,
    .exit (.select false (.ready (.ok 0))), .exit (.send .sent), .stdin .recv, .stdin (.send .sent), .join, .fail .sent,
    .close]

theorem status_reported_unreadable :
    ∃ s : Agent Connection, s.phase = .done (.error (.io ⟨"Input/output error (os error 5)"⟩)) ∧
      s.log = [.started ⟨7⟩, .exited ⟨0⟩, .stdin .closed, .error ⟨"Input/output error (os error 5)"⟩] ∧
      Decided s.events (.error (.io ⟨"Input/output error (os error 5)"⟩)) ∧
      Reported s.events (.error (.io ⟨"Input/output error (os error 5)"⟩)) := by
  have completes : (execute Agent.step (.new (⟨messageLines [.exec (request "cat")]⟩ : Connection)) unreadable).map
      (fun s => (s.phase.error?, s.log)) =
      some (some (.io ⟨"Input/output error (os error 5)"⟩),
        [.started ⟨7⟩, .exited ⟨0⟩, .stdin .closed, .error ⟨"Input/output error (os error 5)"⟩]) := by
    decide +kernel
  obtain ⟨s, run, ended⟩ := Option.map_eq_some_iff.mp completes
  obtain ⟨done, said⟩ := Prod.mk.inj ended
  have phase := Phase.error?_some done
  exact ⟨s, phase, said, status_reported _ unreadable s _ run phase⟩

end MinimalVm.Agent
