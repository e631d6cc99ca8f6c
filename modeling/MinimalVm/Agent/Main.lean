import MinimalVm.Agent.Tasks
import MinimalVm.Semantics.Execution

/-! The agent from its first receive to its exit.

The agent receives the request, spawns the child, reports it started, and then
polls four tasks until all have ended; the first error among their results
becomes the error message. The tasks are polled in turns that may come in any
order, so a list of actions is one interleaving together with everything the
host, the child and the system do.
-/

set_option autoImplicit false

namespace MinimalVm.Agent

open MinimalVm.Semantics MinimalVm.Protocol MinimalVm.Io

/-- A spawned child and what its output pipes will deliver. -/
structure SpawnedChild where
  pid : UInt32
  stdout : List ReadEvent
  stderr : List ReadEvent

structure Tasks where
  lineBuffered : Bool
  exit : ExitTask
  stdin : StdinTask
  stdout : OutputTask
  stderr : OutputTask

namespace Tasks

def new (lineBuffered : Bool) (process : Process) (child : SpawnedChild) : Tasks :=
  { lineBuffered
    exit := .waiting process
    stdin := .receiving
    stdout := .reading (.new child.stdout) false
    stderr := .reading (.new child.stderr) false }

def output (this : Tasks) : Output → OutputTask
  | .stdout => this.stdout
  | .stderr => this.stderr

def setOutput (this : Tasks) (task : OutputTask) : Output → Tasks
  | .stdout => { this with stdout := task }
  | .stderr => { this with stderr := task }

@[simp] theorem setOutput_exit (this : Tasks) (task : OutputTask) (output : Output) :
    (this.setOutput task output).exit = this.exit := by cases output <;> rfl

@[simp] theorem setOutput_stdin (this : Tasks) (task : OutputTask) (output : Output) :
    (this.setOutput task output).stdin = this.stdin := by cases output <;> rfl

@[simp] theorem setOutput_self (this : Tasks) (task : OutputTask) (output : Output) :
    (this.setOutput task output).output output = task := by cases output <;> rfl

theorem setOutput_other (this : Tasks) (task : OutputTask) {output other : Output} (apart : output ≠ other) :
    (this.setOutput task output).output other = this.output other := by
  cases output <;> cases other <;> first | rfl | exact absurd rfl apart

/-- The result of joining the tasks, once all have ended: the first error in
the order in which the results are looked at. -/
def join (this : Tasks) : Option Ending :=
  match this.exit, this.stdin, this.stdout, this.stderr with
  | .ended exit, .ended stdin, .ended stdout, .ended stderr =>
    some (exit *> stdin *> stdout *> stderr)
  -- One task that goes on keeps the results of all the others waiting.
  | _, _, _, _ => none

theorem join_some {this : Tasks} {result : Ending} (joined : this.join = some result) :
    ∃ exit stdin stdout stderr, this.exit = .ended exit ∧ this.stdin = .ended stdin ∧
      this.stdout = .ended stdout ∧ this.stderr = .ended stderr ∧
      result = (exit *> stdin *> stdout *> stderr) := by
  unfold join at joined
  split at joined
  · rename_i exit stdin stdout stderr _ _ _ _
    exact ⟨exit, stdin, stdout, stderr, ‹_›, ‹_›, ‹_›, ‹_›, (Option.some.inj joined).symm⟩
  · cases joined

theorem join_ok {this : Tasks} (joined : this.join = some (.ok ())) :
    this.exit = .ended (.ok ()) ∧ this.stdin = .ended (.ok ()) ∧ this.stdout = .ended (.ok ()) ∧
      this.stderr = .ended (.ok ()) := by
  obtain ⟨exit, stdin, stdout, stderr, exits, stdins, stdouts, stderrs, result⟩ := join_some joined
  obtain error | _ := exit
  · cases result
  obtain error | _ := stdin
  · cases result
  obtain error | _ := stdout
  · cases result
  obtain error | _ := stderr
  · cases result
  exact ⟨exits, stdins, stdouts, stderrs⟩

end Tasks

inductive Phase where
  | receiving
  | spawning (exec : Exec)
  | starting (lineBuffered : Bool) (process : Process) (child : SpawnedChild) (send : Send)
  | running (tasks : Tasks)
  | failing (error : AgentError) (send : Send)
  | closing (status : Ending)
  | done (status : Ending)

namespace Phase

def status? : Phase → Option Ending
  | .done status => some status
  | .receiving | .spawning _ | .starting _ _ _ _ | .running _ | .failing _ _ | .closing _ => none

theorem status?_some {this : Phase} {status : Ending} (ended : this.status? = some status) :
    this = .done status := by
  cases this with
  | done other => exact congrArg done (Option.some.inj ended)
  | receiving | spawning exec | starting lineBuffered process child send | running tasks
  | failing error send | closing other => cases ended

def succeeded (this : Phase) : Bool :=
  match this.status? with
  | some (.ok ()) => true
  | some (.error _) | none => false

theorem done_of_succeeded {this : Phase} (ok : this.succeeded = true) : this = .done (.ok ()) := by
  unfold succeeded at ok
  split at ok
  · exact status?_some ‹_›
  · cases ok
  · cases ok

end Phase

/-- The child as the system sees it. -/
inductive ChildState where
  | unborn
  | running (pid : UInt32)
  | exited (pid : UInt32) (status : Int32)

/-- A wait reports the end of the child only once the child has ended. -/
def ChildState.allows : ChildState → ExitTurn → Bool
  | .exited _ status, .select _ (.ready (.ok reported)) => reported == status
  | .unborn, .select _ (.ready (.ok _)) | .running _, .select _ (.ready (.ok _)) => false
  | _, .select _ .pending | _, .select _ (.ready (.error _)) | _, .send _ => true

structure Agent (ρ : Type) where
  rx : RxLocal ρ
  phase : Phase
  child : ChildState
  events : List Event

inductive Action where
  | receive
  | spawn (outcome : Except String SpawnedChild)
  | start (polled : SendPoll)
  | exit (turn : ExitTurn)
  | stdin (turn : StdinTurn)
  | output (output : Output) (turn : OutputTurn)
  | join
  | fail (polled : SendPoll)
  | close
  | childExits (status : Int32)

def Event.message? : Event → Option Message
  | .enqueued msg => some msg
  | _ => none

def logOf (events : List Event) : List Message := events.filterMap Event.message?

namespace Agent

variable {ρ : Type} [MessageReader ρ]

def new (reader : ρ) : Agent ρ := ⟨.new reader, .receiving, .unborn, []⟩

def log (this : Agent ρ) : List Message := logOf this.events

def advance (this : Agent ρ) (phase : Phase) (events : List Event) : Agent ρ :=
  { this with phase, events := this.events ++ events }

def failWith (this : Agent ρ) (error : AgentError) (events : List Event) : Agent ρ :=
  this.advance (.failing error (.send (.error ⟨error.message⟩))) events

def handleExec (this : Agent ρ) : PollRecv Exec → Agent ρ
  | .pending => this
  | .ready (.error error) => this.failWith (.recv error) (malformed .main error)
  | .ready (.ok none) => this.failWith .connectionClosed []
  | .ready (.ok (some exec)) => this.advance (.spawning exec) []

def handleSpawn (this : Agent ρ) (exec : Exec) : Except String SpawnedChild → Agent ρ
  | .error debug => this.failWith (.spawn debug) []
  | .ok child =>
    let started := .starting (exec.lineBufferedIo.getD true) (.spawned child.pid) child
      (.send (.started ⟨child.pid⟩))
    { this.advance started [.spawned child.pid] with child := .running child.pid }

def handleStart (this : Agent ρ) (lineBuffered : Bool) (process : Process) (child : SpawnedChild) (send : Send)
    (polled : SendPoll) : Agent ρ :=
  match polled.outcome with
  | .pending => this.advance (.starting lineBuffered process child (send.poll polled)) (send.events polled)
  | .ready (.ok ()) => this.advance (.running (.new lineBuffered process child)) (send.events polled)
  -- The handle of the child is dropped on the way out.
  | .ready (.error error) =>
    this.failWith (.send error) (send.events polled ++ process.drop.1.map .signalled)

def handleFail (this : Agent ρ) (error : AgentError) (send : Send) (polled : SendPoll) : Agent ρ :=
  match polled.outcome with
  | .pending => this.advance (.failing error (send.poll polled)) (send.events polled)
  -- Whether the report was sent is not looked at.
  | .ready _ => this.advance (.closing (.error error)) (send.events polled)

def handleJoin (this : Agent ρ) : Ending → Agent ρ
  | .ok () => this.advance (.closing (.ok ())) []
  | .error error => this.failWith error []

def turned {T : Type} (this : Agent ρ) (tasks : T → Tasks) (turn : Turn T ρ) : Agent ρ :=
  { this.advance (.running (tasks turn.task)) turn.events with rx := turn.rx }

def step (this : Agent ρ) : Action → Option (Agent ρ)
  | .receive =>
    match this.phase with
    | .receiving =>
      let polled := this.rx.pollRecv Exec
      some ({ this with rx := polled.2 }.handleExec polled.1)
    | _ => none
  | .spawn outcome =>
    match this.phase with
    | .spawning exec => some (this.handleSpawn exec outcome)
    | _ => none
  | .start polled =>
    match this.phase with
    | .starting lineBuffered process child send =>
      some (this.handleStart lineBuffered process child send polled)
    | _ => none
  | .exit turn =>
    match this.phase with
    | .running tasks =>
      if this.child.allows turn then
        (tasks.exit.step this.rx turn).map (this.turned fun exit => { tasks with exit })
      else none
    | _ => none
  | .stdin turn =>
    match this.phase with
    | .running tasks =>
      (tasks.stdin.step this.rx turn).map (this.turned fun stdin => { tasks with stdin })
    | _ => none
  | .output output turn =>
    match this.phase with
    | .running tasks =>
      ((tasks.output output).step output tasks.lineBuffered this.rx turn).map
        (this.turned fun task => tasks.setOutput task output)
    | _ => none
  | .join =>
    match this.phase with
    | .running tasks => tasks.join.map this.handleJoin
    | _ => none
  | .fail polled =>
    match this.phase with
    | .failing error send => some (this.handleFail error send polled)
    | _ => none
  | .close =>
    match this.phase with
    | .closing status => some (this.advance (.done status) [])
    | _ => none
  | .childExits status =>
    match this.child with
    | .running pid =>
      some { this with child := .exited pid status, events := this.events ++ [.childExited pid status] }
    | _ => none

end Agent
end MinimalVm.Agent
