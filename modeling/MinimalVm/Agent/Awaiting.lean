import MinimalVm.Agent.Serving
import MinimalVm.Agent.Speech

/-! What the agent does about the sends it awaits.

An action either leaves the sends under way alone and may begin one, or it polls
one of them, which goes on or makes way for another. A part of the agent that
says that it has finished has just seen the last of its messages flushed.
-/

set_option autoImplicit false

namespace MinimalVm.Agent

open MinimalVm.Semantics MinimalVm.Protocol MinimalVm.Io

inductive Begun : Option Send → Option Send → Prop
  | same {send : Option Send} : Begun send send
  | begins {send : Send} : send.taken = false → Begun none (some send)

inductive Went (send : Send) (polled : SendPoll) : Option Send → Prop
  | goesOn : polled.outcome = .pending → Went send polled (some (send.poll polled))
  | done {after : Option Send} : polled.outcome ≠ .pending → Begun none after → Went send polled after

def Silent (events : List Event) : Prop := logOf events = [] ∧ ∀ task, .finished task ∉ events

structure Polls (send : Send) (polled : SendPoll) (events : List Event) (after : Option Send) : Prop where
  shows : ∃ rest, events = send.events polled ++ rest ∧ logOf rest = [] ∧
    ∀ task, .finished task ∈ rest → polled = .sent ∧ send.flush = true
  went : Went send polled after

theorem silent_nil : Silent [] := ⟨rfl, nofun⟩

theorem Silent.append {first rest : List Event} (one : Silent first) (two : Silent rest) : Silent (first ++ rest) := by
  refine ⟨by rw [logOf_append, one.1, two.1, List.nil_append], fun task member => ?_⟩
  rcases List.mem_append.mp member with member | member
  · exact one.2 task member
  · exact two.2 task member

theorem silent_signalled (signals : List Signal) : Silent (signals.map .signalled) :=
  ⟨logOf_signalled signals, fun _ member => by simp at member⟩

theorem silent_malformed (task : Task) (error : RecvError) : Silent (malformed task error) := by
  refine ⟨logOf_malformed task error, fun _ member => ?_⟩
  cases error with
  | parse cause => cases List.mem_singleton.mp member
  | read cause => cases member

theorem silent_failed (task : Task) (error : AgentError) : Silent [.failed task error] :=
  ⟨rfl, fun _ member => nomatch List.mem_singleton.mp member⟩

theorem Overhears.silent {ρ : Type} [MessageReader ρ] {output : Output} {rx : RxLocal ρ} {events : List Event}
    (overhears : Overhears output rx events) : Silent events := by
  cases overhears with
  | nothing => exact silent_nil
  | malformed _ => exact ⟨rfl, fun _ member => nomatch List.mem_singleton.mp member⟩

namespace Polls

variable {send : Send} {after : Option Send}

theorem of_silent {polled : SendPoll} {rest : List Event} (silent : Silent rest) (went : Went send polled after) :
    Polls send polled (send.events polled ++ rest) after :=
  ⟨⟨rest, rfl, silent.1, fun task member => absurd member (silent.2 task)⟩, went⟩

theorem alone {polled : SendPoll} (went : Went send polled after) : Polls send polled (send.events polled) after := by
  have polls := of_silent silent_nil went
  rwa [List.append_nil] at polls

theorem waits (takes : Bool) :
    Polls send (.pending takes) (send.events (.pending takes)) (some (send.poll (.pending takes))) :=
  alone (.goesOn rfl)

theorem answers {polled : SendPoll} (answered : polled.outcome ≠ .pending) (begun : Begun none after) :
    Polls send polled (send.events polled) after := alone (.done answered begun)

theorem fails (takes : Bool) (error : SendError) {rest : List Event} (silent : Silent rest)
    (begun : Begun none after) :
    Polls send (.failed takes error) (send.events (.failed takes error) ++ rest) after :=
  of_silent silent (.done nofun begun)

theorem finishes {task : Task} {rest : List Event} (flushes : send.flush = true) (silent : Silent rest) :
    Polls send .sent (send.events .sent ++ .finished task :: rest) none :=
  ⟨⟨.finished task :: rest, rfl, silent.1, fun _ _ => ⟨rfl, flushes⟩⟩, .done nofun .same⟩

end Polls

/-! ## Tasks -/

def ExitTask.Flushes : ExitTask → Prop
  | .sending _ send => send.flush = true
  | .waiting _ | .ended _ => True

def StdinTask.Flushes : StdinTask → Prop
  | .sending send => send.flush = true
  | .receiving | .writing _ | .ended _ => True

def OutputTask.Flushes : OutputTask → Prop
  | .finishing send => send.flush = true
  | .reading _ _ | .sending _ _ | .ended _ => True

section
variable {ρ : Type} [MessageReader ρ] {rx : RxLocal ρ}

theorem ExitMove.flushes {task task' : ExitTask} {turn : ExitTurn} {events : List Event}
    (move : ExitMove rx task turn events task') (before : task.Flushes) : task'.Flushes := by
  cases move with
  | waits | recvFailed | waitFailed | sent | sendFailed => trivial
  | exits process' status _ => rfl
  | sends takes => exact before

theorem StdinMove.flushes {task task' : StdinTask} {events : List Event} (move : StdinMove task events task')
    (before : task.Flushes) : task'.Flushes := by
  cases move with
  | recvWaits | recvFailed | data | wrote | writeWaits | writes | writeFailed | sent | sendFailed => trivial
  | closes => rfl
  | sends takes => exact before

theorem OutputMove.flushes {output : Output} {task task' : OutputTask} {events : List Event}
    (move : OutputMove output rx task events task') (before : task.Flushes) : task'.Flushes := by
  cases move with
  | waits | data | readFailed | close | closeAgain | sends | sent | sendFailed | finished | finishFailed => trivial
  | eof => rfl
  | finishes takes => exact before

theorem ExitMove.quiet {task task' : ExitTask} {killFirst : Bool} {answer : Poll (Except IoError Int32)}
    {events : List Event} (move : ExitMove rx task (.select killFirst answer) events task') :
    Silent events ∧ Begun task.send? task'.send? := by
  cases move with
  | waits signals => exact ⟨silent_signalled signals, .same⟩
  | @recvFailed _ process' _ _ error kept =>
    have dropped := (silent_failed .exit (.recv error)).append (silent_signalled process'.drop.1)
    exact ⟨(silent_malformed .exit error).append dropped, .same⟩
  | waitFailed error signals => exact ⟨(silent_failed .exit (.wait error)).append (silent_signalled signals), .same⟩
  | exits process' status _ => exact ⟨silent_nil, .begins rfl⟩

theorem StdinTask.step_quiet {task : StdinTask} {turn : StdinTurn} {turned : Turn StdinTask ρ}
    (moved : task.step rx turn = some turned) (quiet : (Action.stdin turn).isQuiet = true) :
    Silent turned.events ∧ Begun task.send? turned.task.send? := by
  have silent {task task' : StdinTask} {events : List Event} (move : StdinMove task events task')
      (idle : task.send? = none) : Silent events ∧ Begun task.send? task'.send? := by
    cases move with
    | recvWaits | data | wrote | writeWaits => exact ⟨silent_nil, .same⟩
    | recvFailed error => exact ⟨(silent_malformed .stdin error).append (silent_failed .stdin _), .same⟩
    | closes => exact ⟨silent_nil, .begins rfl⟩
    | writes n => exact ⟨⟨rfl, fun _ member => nomatch List.mem_singleton.mp member⟩, .same⟩
    | writeFailed error => exact ⟨silent_failed .stdin _, .same⟩
    | sends | sent | sendFailed => cases idle
  have move := StdinTask.step_move moved
  cases StdinTask.step_turned moved with
  | recv => exact silent move rfl
  | write bytes answer => exact silent move rfl
  | sends | sendFailed | sent => cases quiet

theorem OutputTask.step_quiet {task : OutputTask} {output : Output} {lineBuffered readFirst answered : Bool}
    {turned : Turn OutputTask ρ} (moved : task.step output lineBuffered rx (.select readFirst answered) = some turned) :
    Silent turned.events ∧ Begun task.send? turned.task.send? := by
  have silent {task task' : OutputTask} {events : List Event} (move : OutputMove output rx task events task')
      (idle : task.send? = none) : Silent events ∧ Begun task.send? task'.send? := by
    cases move with
    | waits _ _ _ overhears => exact ⟨overhears.silent, .same⟩
    | data _ _ _ overhears => exact ⟨overhears.silent, .begins rfl⟩
    | eof _ overhears => exact ⟨overhears.silent, .begins rfl⟩
    | readFailed error overhears => exact ⟨overhears.silent.append (silent_failed _ _), .same⟩
    | close => exact ⟨⟨rfl, fun _ member => nomatch List.mem_singleton.mp member⟩, .same⟩
    | closeAgain buffer errno _ =>
      refine ⟨⟨rfl, fun _ member => ?_⟩, .same⟩
      rcases List.mem_cons.mp member with same | member
      · cases same
      · cases List.mem_singleton.mp member
    | sends | sent | sendFailed | finishes | finished | finishFailed => cases idle
  have move := OutputTask.step_move moved
  cases OutputTask.step_turned moved with
  | select pipe disabled => exact silent move rfl

theorem ExitTask.step_polls {task : ExitTask} {send : Send} (awaits : task.send? = some send) (flushes : task.Flushes)
    (rx : RxLocal ρ) (polled : SendPoll) :
    ∃ turned, task.step rx (.send polled) = some turned ∧ Polls send polled turned.events turned.task.send? := by
  match task, awaits, flushes with
  | .sending process _, rfl, flushes =>
    cases polled with
    | pending takes => exact ⟨_, rfl, .waits takes⟩
    | failed takes error =>
      exact ⟨_, rfl, .fails takes error ((silent_failed .exit (.send error)).append (silent_signalled process.drop.1)) .same⟩
    | sent => exact ⟨_, rfl, .finishes flushes (silent_signalled process.drop.1)⟩

theorem StdinTask.step_polls {task : StdinTask} {send : Send} (awaits : task.send? = some send)
    (flushes : task.Flushes) (rx : RxLocal ρ) (polled : SendPoll) :
    ∃ turned, task.step rx (.send polled) = some turned ∧ Polls send polled turned.events turned.task.send? := by
  match task, awaits, flushes with
  | .sending _, rfl, flushes =>
    cases polled with
    | pending takes => exact ⟨_, rfl, .waits takes⟩
    | failed takes error => exact ⟨_, rfl, .fails takes error (silent_failed .stdin (.send error)) .same⟩
    | sent => exact ⟨_, rfl, .finishes flushes silent_nil⟩

theorem OutputTask.step_polls {task : OutputTask} {send : Send} (awaits : task.send? = some send)
    (flushes : task.Flushes) (output : Output) (lineBuffered : Bool) (rx : RxLocal ρ) (polled : SendPoll) :
    ∃ turned, task.step output lineBuffered rx (.send polled) = some turned ∧
      Polls send polled turned.events turned.task.send? := by
  match task, awaits, flushes with
  | .sending pipe _, rfl, _ =>
    cases polled with
    | pending takes => exact ⟨_, rfl, .waits takes⟩
    | failed takes error => exact ⟨_, rfl, .fails takes error (silent_failed (.output output) (.send error)) .same⟩
    | sent => exact ⟨_, rfl, .answers nofun .same⟩
  | .finishing _, rfl, flushes =>
    cases polled with
    | pending takes => exact ⟨_, rfl, .waits takes⟩
    | failed takes error => exact ⟨_, rfl, .fails takes error (silent_failed (.output output) (.send error)) .same⟩
    | sent => exact ⟨_, rfl, .finishes flushes silent_nil⟩

end

/-! ## The agent -/

def Phase.Flushes : Phase → Prop
  | .running tasks => tasks.exit.Flushes ∧ tasks.stdin.Flushes ∧ ∀ output, (tasks.output output).Flushes
  | .receiving | .spawning _ | .starting _ _ _ _ | .failing _ _ | .closing _ | .done _ => True

section
variable {ρ : Type} [MessageReader ρ] {s t : Agent ρ}

theorem AgentMove.flushes {action : Action} (move : AgentMove s action t) (before : s.phase.Flushes) :
    t.phase.Flushes := by
  cases move with
  | receives rx received => exact before
  | childExits => exact before
  | refuses | disconnected | requested | spawnFailed | spawned | starts | startFailed | joined | joinFailed | reports
  | reported | reportFailed | closes => trivial
  | started => exact ⟨trivial, trivial, fun output => by cases output <;> trivial⟩
  | exit turned running _ moved =>
    rw [running] at before
    exact ⟨(ExitTask.step_move moved).flushes before.1, before.2⟩
  | stdin turned running moved =>
    rw [running] at before
    exact ⟨before.1, (StdinTask.step_move moved).flushes before.2.1, before.2.2⟩
  | @output tasks output turn turned running moved =>
    rw [running] at before
    refine ⟨?_, ?_, fun other => ?_⟩
    · rw [Tasks.setOutput_exit]
      exact before.1
    · rw [Tasks.setOutput_stdin]
      exact before.2.1
    · by_cases same : output = other
      · subst same
        rw [Tasks.setOutput_self]
        exact (OutputTask.step_move moved).flushes (before.2.2 output)
      · rw [Tasks.setOutput_other _ _ same]
        exact before.2.2 other

theorem send?_running (tasks : Tasks) (task : Task) :
    (Phase.running tasks).send? task =
      match task with
      | .main => none
      | .exit => tasks.exit.send?
      | .stdin => tasks.stdin.send?
      | .output output => (tasks.output output).send? := by
  cases task <;> rfl

theorem send?_setOutput_self (tasks : Tasks) (task : OutputTask) (output : Output) :
    (Phase.running (tasks.setOutput task output)).send? (.output output) = task.send? :=
  congrArg OutputTask.send? (tasks.setOutput_self task output)

theorem send?_setOutput_other (tasks : Tasks) (task : OutputTask) {output : Output} {other : Task}
    (apart : other ≠ .output output) :
    (Phase.running (tasks.setOutput task output)).send? other = (Phase.running tasks).send? other := by
  cases other with
  | main => rfl
  | exit => exact congrArg ExitTask.send? (tasks.setOutput_exit task output)
  | stdin => exact congrArg StdinTask.send? (tasks.setOutput_stdin task output)
  | output other =>
    have differ : output ≠ other := fun same => apart (congrArg Task.output same.symm)
    exact congrArg OutputTask.send? (tasks.setOutput_other task differ)

theorem send?_joined {tasks : Tasks} {result : Ending} (joined : tasks.join = some result) (task : Task) :
    (Phase.running tasks).send? task = none := by
  obtain ⟨exit, stdin, stdout, stderr, exits, stdins, stdouts, stderrs, -⟩ := Tasks.join_some joined
  rw [send?_running]
  match task with
  | .main => rfl
  | .exit => exact congrArg ExitTask.send? exits
  | .stdin => exact congrArg StdinTask.send? stdins
  | .output .stdout => exact congrArg OutputTask.send? stdouts
  | .output .stderr => exact congrArg OutputTask.send? stderrs

theorem begun_main {before after : Phase} (idle : ∀ task, before.send? task = none)
    (main : Begun none (after.send? .main)) (others : ∀ task, task ≠ .main → after.send? task = none) (task : Task) :
    Begun (before.send? task) (after.send? task) := by
  rw [idle task]
  by_cases same : task = .main
  · subst same
    exact main
  · rw [others task same]
    exact .same

theorem send?_starting (lineBuffered : Bool) (process : Process) (child : SpawnedChild) (send : Send) (task : Task)
    (other : task ≠ .main) : (Phase.starting lineBuffered process child send).send? task = none := by
  cases task with
  | main => exact absurd rfl other
  | exit | stdin | output => rfl

theorem send?_failing (error : AgentError) (send : Send) (task : Task) (other : task ≠ .main) :
    (Phase.failing error send).send? task = none := by
  cases task with
  | main => exact absurd rfl other
  | exit | stdin | output => rfl

namespace Agent

def Quietly (s t : Agent ρ) : Prop :=
  ∃ events, t.events = s.events ++ events ∧ Silent events ∧ ∀ task, Begun (s.phase.send? task) (t.phase.send? task)

omit [MessageReader ρ] in
theorem Quietly.failWith {error : AgentError} {events : List Event} (silent : Silent events)
    (idle : ∀ task, s.phase.send? task = none) : Quietly s (s.failWith error events) :=
  ⟨events, rfl, silent, begun_main idle (.begins rfl) (send?_failing error _)⟩

omit [MessageReader ρ] in
theorem Quietly.turned {T : Type} {tasks : Tasks} {change : T → Tasks} {turn : Turn T ρ}
    (running : s.phase = .running tasks) (silent : Silent turn.events)
    (begun : ∀ task, Begun ((Phase.running tasks).send? task) ((Phase.running (change turn.task)).send? task)) :
    Quietly s (s.turned change turn) :=
  ⟨turn.events, rfl, silent, fun task => running ▸ begun task⟩

theorem step_quiet {action : Action} (moved : s.step action = some t) (quiet : action.isQuiet = true) :
    Quietly s t := by
  have unchanged : s.events = s.events ++ [] := (List.append_nil _).symm
  cases step_move moved with
  | receives rx received => exact ⟨[], unchanged, silent_nil, fun _ => .same⟩
  | refuses rx error received =>
    exact Quietly.failWith (s := { s with rx }) (silent_malformed .main error) (fun task => by rw [received]; cases task <;> rfl)
  | disconnected rx received =>
    exact Quietly.failWith (s := { s with rx }) silent_nil (fun task => by rw [received]; cases task <;> rfl)
  | requested rx exec received =>
    refine ⟨[], rfl, silent_nil, fun task => ?_⟩
    rw [received]
    cases task <;> exact .same
  | spawnFailed debug spawning =>
    exact Quietly.failWith silent_nil (fun task => by rw [spawning]; cases task <;> rfl)
  | @spawned exec child spawning =>
    have shown : Silent [.spawned child.pid] := ⟨rfl, fun _ member => nomatch List.mem_singleton.mp member⟩
    refine ⟨_, rfl, shown, begun_main (fun task => ?_) (.begins rfl) (send?_starting _ _ _ _)⟩
    rw [spawning]
    cases task <;> rfl
  | @exit tasks turn turned running allows stepped =>
    cases turn with
    | select killFirst answer =>
      obtain ⟨silent, begun⟩ := (ExitTask.step_move stepped).quiet
      refine Quietly.turned running silent fun task => ?_
      cases task with
      | exit => exact begun
      | main | stdin | output => exact .same
    -- A poll of a send is not quiet.
    | send polled => cases quiet
  | @stdin tasks turn turned running stepped =>
    obtain ⟨silent, begun⟩ := StdinTask.step_quiet stepped quiet
    refine Quietly.turned running silent fun task => ?_
    cases task with
    | stdin => exact begun
    | main | exit | output => exact .same
  | @output tasks output turn turned running stepped =>
    cases turn with
    | select readFirst answered =>
      obtain ⟨silent, begun⟩ := OutputTask.step_quiet stepped
      refine Quietly.turned running silent fun task => ?_
      by_cases same : task = .output output
      · subst same
        rw [send?_setOutput_self]
        exact begun
      · rw [send?_setOutput_other tasks turned.task same]
        exact .same
    | send polled => cases quiet
  | joined running joined =>
    refine ⟨[], rfl, silent_nil, fun task => ?_⟩
    rw [running, send?_joined joined]
    cases task <;> exact .same
  | joinFailed running joined =>
    exact Quietly.failWith silent_nil (fun task => by rw [running]; exact send?_joined joined task)
  | childExits status alive =>
    exact ⟨_, rfl, ⟨rfl, fun _ member => nomatch List.mem_singleton.mp member⟩, fun _ => .same⟩
  | starts | started | startFailed | reports | reported | reportFailed | closes => cases quiet

/-- A send that is awaited can be polled, whatever the poll comes to. -/
theorem step_polls {task : Task} {send : Send} (awaits : s.phase.send? task = some send) (flushes : s.phase.Flushes)
    (polled : SendPoll) :
    ∃ t events, s.step (s.phase.sendAction polled task) = some t ∧ t.events = s.events ++ events ∧
      Polls send polled events (t.phase.send? task) ∧
      ∀ other, other ≠ task → t.phase.send? other = s.phase.send? other := by
  obtain ⟨rx, phase, child, events⟩ := s
  match phase, task, awaits, flushes with
  | .starting lineBuffered process spawned _, .main, rfl, _ =>
    cases polled with
    | pending takes =>
      refine ⟨_, _, rfl, rfl, .waits takes, fun other apart => ?_⟩
      exact (send?_starting _ _ _ _ other apart).trans (send?_starting _ _ _ _ other apart).symm
    | failed takes error =>
      refine ⟨_, _, rfl, rfl, .fails takes error (silent_signalled process.drop.1) (.begins rfl), fun other apart => ?_⟩
      exact (send?_failing _ _ other apart).trans (send?_starting _ _ _ _ other apart).symm
    | sent =>
      refine ⟨_, _, rfl, rfl, .answers nofun .same, fun other apart => ?_⟩
      rw [send?_starting _ _ _ _ other apart]
      match other with
      | .main | .exit | .stdin | .output .stdout | .output .stderr => rfl
  -- Unless the poll waits, main goes on to close.
  | .failing error _, .main, rfl, _ =>
    cases polled with
    | pending takes =>
      refine ⟨_, _, rfl, rfl, .waits takes, fun other apart => ?_⟩
      exact (send?_failing _ _ other apart).trans (send?_failing _ _ other apart).symm
    | failed takes cause =>
      refine ⟨_, _, rfl, rfl, .answers nofun .same, fun other apart => ?_⟩
      rw [send?_failing _ _ other apart]
      cases other <;> rfl
    | sent =>
      refine ⟨_, _, rfl, rfl, .answers nofun .same, fun other apart => ?_⟩
      rw [send?_failing _ _ other apart]
      cases other <;> rfl
  | .running tasks, .exit, awaits, flushes =>
    obtain ⟨turned, stepped, polls⟩ := ExitTask.step_polls awaits flushes.1 rx polled
    let running : Agent ρ := ⟨rx, .running tasks, child, events⟩
    refine ⟨running.turned (fun exit => { tasks with exit }) turned, turned.events, ?_, rfl, polls, fun other apart => ?_⟩
    · have allowed : child.allows (.send polled) = true := by cases child <;> rfl
      simp only [running, step, Phase.sendAction, allowed, if_true, stepped, Option.map_some]
    · cases other with
      | exit => exact absurd rfl apart
      | main | stdin | output => rfl
  | .running tasks, .stdin, awaits, flushes =>
    obtain ⟨turned, stepped, polls⟩ := StdinTask.step_polls awaits flushes.2.1 rx polled
    let running : Agent ρ := ⟨rx, .running tasks, child, events⟩
    refine ⟨running.turned (fun stdin => { tasks with stdin }) turned, turned.events, ?_, rfl, polls, fun other apart => ?_⟩
    · simp only [running, step, Phase.sendAction, stepped, Option.map_some]
    · cases other with
      | stdin => exact absurd rfl apart
      | main | exit | output => rfl
  | .running tasks, .output output, awaits, flushes =>
    obtain ⟨turned, stepped, polls⟩ := OutputTask.step_polls awaits (flushes.2.2 output) output tasks.lineBuffered rx polled
    let running : Agent ρ := ⟨rx, .running tasks, child, events⟩
    refine ⟨running.turned (fun task => tasks.setOutput task output) turned, turned.events, ?_, rfl, ?_, fun other apart => ?_⟩
    · simp only [running, step, Phase.sendAction, stepped, Option.map_some]
    · have own := send?_setOutput_self tasks turned.task output
      rw [← own] at polls
      exact polls
    · exact send?_setOutput_other tasks turned.task apart

end Agent
end
end MinimalVm.Agent
