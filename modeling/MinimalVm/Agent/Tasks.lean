import MinimalVm.Agent.Pipe
import MinimalVm.Agent.Process
import MinimalVm.Agent.Sending
import MinimalVm.Io.Receive

/-! The four tasks that serve one child.

One turn of a task is one poll of what it waits for and everything it then does
without waiting. Its label says what the system answers and which branch of a
`select!` is polled first. Besides the state it leaves, a turn yields the
events that can be observed from outside.
-/

set_option autoImplicit false

namespace MinimalVm.Agent

open MinimalVm.Semantics MinimalVm.Protocol MinimalVm.Io

inductive Output where
  | stdout
  | stderr
  deriving DecidableEq, Repr

namespace Output

def name : Output → String
  | .stdout => "stdout"
  | .stderr => "stderr"

def message : Output → Stdio → Message
  | .stdout => .stdout
  | .stderr => .stderr

end Output

/-- The parts of the agent that receive, send and fail on their own. -/
inductive Task where
  | main
  | exit
  | stdin
  | output (output : Output)
  deriving DecidableEq, Repr

inductive AgentError where
  | recv (cause : RecvError)
  | connectionClosed
  | spawn (debug : String)
  | send (cause : SendError)
  | io (cause : IoError)
  | closing (output : Output) (errno : String)
  | wait (cause : ArcErr)
  deriving DecidableEq, Repr

def AgentError.message : AgentError → String
  | .recv cause => cause.message
  | .connectionClosed => "Connection closed"
  | .spawn debug => "Failed to spawn child " ++ debug
  | .send cause => cause.message
  | .io cause => cause.text
  | .closing output errno => "closing " ++ output.name ++ ": " ++ errno
  | .wait cause => cause.text

/-- What a run shows: messages enqueued, the child's life, and how tasks fare. -/
inductive Event where
  | enqueued (msg : Message)
  | sendFailed (msg : Message) (error : SendError)
  | spawned (pid : UInt32)
  | written (bytes : Bytes)
  | signalled (signal : Signal)
  | childExited (pid : UInt32) (status : Int32)
  | malformed (task : Task) (cause : ParseError)
  | closeHandled (output : Output) (buffer : Bytes)
  | failed (task : Task) (error : AgentError)
  | finished (task : Task)
  deriving DecidableEq

/-- A task that has received an error has read a malformed line, or nothing. -/
def malformed (task : Task) : RecvError → List Event
  | .parse cause => [.malformed task cause]
  | .read _ => []

def Send.failures (this : Send) : SendPoll → List Event
  | .failed _ error => [.sendFailed this.msg error]
  | .pending _ | .sent => []

def Send.events (this : Send) (polled : SendPoll) : List Event :=
  (this.newly polled).map .enqueued ++ this.failures polled

abbrev Ending := Except AgentError Unit

def ending (task : Task) : Ending → Event
  | .ok () => .finished task
  | .error error => .failed task error

structure Turn (T ρ : Type) where
  task : T
  rx : RxLocal ρ
  events : List Event

variable {ρ : Type} [MessageReader ρ]

/-! ## The exit task -/

inductive ExitTask where
  | waiting (process : Process)
  | sending (process : Process) (send : Send)
  | ended (result : Ending)

inductive ExitTurn where
  | select (killFirst : Bool) (answer : Poll (Except IoError Int32))
  | send (polled : SendPoll)

/-- The process handle is dropped with everything else the task holds. -/
def endExit (process : Process) (rx : RxLocal ρ) (events : List Event) (result : Ending) : Turn ExitTask ρ :=
  ⟨.ended result, rx, events ++ ending .exit result :: process.drop.1.map .signalled⟩

def handleKill (process : Process) (rx : RxLocal ρ) : Except RecvError (Option Kill) → Turn ExitTask ρ
  | .error error => endExit process rx (malformed .exit error) (.error (.recv error))
  -- The end of the connection is no kill, and the loop goes round again.
  | .ok none => ⟨.waiting process, rx, []⟩
  | .ok (some kill) => ⟨.waiting process, rx, (process.signal kill.signal).map .signalled⟩

def handleExit (process : Process) (rx : RxLocal ρ) : Except ArcErr Int32 → Turn ExitTask ρ
  | .error error => endExit process rx [] (.error (.wait error))
  | .ok status => ⟨.sending process (.sendAndFlush (.exited ⟨status⟩)), rx, []⟩

def selectExit (process : Process) (rx : RxLocal ρ) (killFirst : Bool)
    (answer : Poll (Except IoError Int32)) : Turn ExitTask ρ :=
  -- The branch that is polled second is polled only if the first one waits. A
  -- kill that completes drops the `wait` that was pending beside it.
  if killFirst then
    match rx.pollRecv Kill with
    | (.ready kill, rx) => handleKill process.dropWait rx kill
    | (.pending, rx) =>
      match process.pollWait answer with
      | (.ready exit, process) => handleExit process rx exit
      | (.pending, process) => ⟨.waiting process, rx, []⟩
  else
    match process.pollWait answer with
    | (.ready exit, process) => handleExit process rx exit
    | (.pending, process) =>
      match rx.pollRecv Kill with
      | (.ready kill, rx) => handleKill process.dropWait rx kill
      | (.pending, rx) => ⟨.waiting process, rx, []⟩

def ExitTask.step (this : ExitTask) (rx : RxLocal ρ) : ExitTurn → Option (Turn ExitTask ρ)
  | .select killFirst answer =>
    match this with
    | .waiting process => some (selectExit process rx killFirst answer)
    | .sending _ _ | .ended _ => none
  | .send polled =>
    match this with
    | .sending process send =>
      match polled.outcome with
      | .pending => some ⟨.sending process (send.poll polled), rx, send.events polled⟩
      | .ready result => some (endExit process rx (send.events polled) (result.mapError .send))
    | .waiting _ | .ended _ => none

/-! ## The stdin task -/

inductive StdinTask where
  | receiving
  | writing (data : Bytes)
  | sending (send : Send)
  | ended (result : Ending)

inductive StdinTurn where
  | recv
  | write (answer : Poll (Except IoError Nat))
  | send (polled : SendPoll)

def endStdin (rx : RxLocal ρ) (events : List Event) (result : Ending) : Turn StdinTask ρ :=
  ⟨.ended result, rx, events ++ [ending .stdin result]⟩

def handleStdin (rx : RxLocal ρ) : PollRecv (Stdin (Option Bytes)) → Turn StdinTask ρ
  | .pending => ⟨.receiving, rx, []⟩
  | .ready (.error error) => endStdin rx (malformed .stdin error) (.error (.recv error))
  | .ready (.ok (some ⟨some data⟩)) => ⟨.writing data, rx, []⟩
  -- A close message and the end of the connection end the input alike.
  | .ready (.ok (some ⟨none⟩)) | .ready (.ok none) =>
    ⟨.sending (.sendAndFlush (.stdin .closed)), rx, []⟩

def writeStdin (data : Bytes) (rx : RxLocal ρ) (answer : Poll (Except IoError Nat)) : Turn StdinTask ρ :=
  if data = [] then ⟨.receiving, rx, []⟩
  else
    match answer with
    | .pending => ⟨.writing data, rx, []⟩
    | .ready (.error error) => endStdin rx [] (.error (.io error))
    | .ready (.ok n) =>
      -- `write_all` gives up on a writer that accepts nothing.
      if n = 0 then endStdin rx [] (.error (.io ⟨"write zero"⟩))
      else ⟨.writing (data.drop n), rx, [.written (data.take n)]⟩

def StdinTask.step (this : StdinTask) (rx : RxLocal ρ) : StdinTurn → Option (Turn StdinTask ρ)
  | .recv =>
    match this with
    | .receiving =>
      let polled := rx.pollRecv (Stdin (Option Bytes))
      some (handleStdin polled.2 polled.1)
    | .writing _ | .sending _ | .ended _ => none
  | .write answer =>
    match this with
    | .writing data => some (writeStdin data rx answer)
    | .receiving | .sending _ | .ended _ => none
  | .send polled =>
    match this with
    | .sending send =>
      match polled.outcome with
      | .pending => some ⟨.sending (send.poll polled), rx, send.events polled⟩
      | .ready result => some (endStdin rx (send.events polled) (result.mapError .send))
    | .receiving | .writing _ | .ended _ => none

/-! ## The stdout and stderr tasks -/

/-- In a `select!` the receiving branch is disabled once what it received does
not match its pattern. -/
inductive OutputTask where
  | reading (pipe : Pipe) (disabled : Bool)
  | sending (pipe : Pipe) (send : Send)
  | finishing (send : Send)
  | ended (result : Ending)

inductive OutputTurn where
  | select (readFirst answered : Bool)
  | send (polled : SendPoll)

inductive Branch where
  | none
  | data (read : Except IoError (Option Bytes))
  | close

structure Selection (ρ : Type) where
  branch : Branch
  pipe : Pipe
  disabled : Bool
  rx : RxLocal ρ
  events : List Event

/-- `rx.recv()` at the type the pattern of the branch asks for. -/
def Output.pollRecv (rx : RxLocal ρ) : Output → PollRecv Stdio × RxLocal ρ
  | .stdout =>
    let polled := rx.pollRecv (Stdout Stdio)
    (polled.1.map fun received => received.map fun msg => msg.map Stdout.value, polled.2)
  | .stderr =>
    let polled := rx.pollRecv (Stderr Stdio)
    (polled.1.map fun received => received.map fun msg => msg.map Stderr.value, polled.2)

def selectClose (output : Output) (pipe : Pipe) (disabled : Bool) (rx : RxLocal ρ) : Selection ρ :=
  if disabled then ⟨.none, pipe, true, rx, []⟩
  else
    match output.pollRecv rx with
    | (.pending, rx) => ⟨.none, pipe, false, rx, []⟩
    | (.ready (.ok (some .closed)), rx) => ⟨.close, pipe, false, rx, []⟩
    -- What does not match the pattern is lost, an error included.
    | (.ready (.ok (some (.data _))), rx) | (.ready (.ok none), rx) => ⟨.none, pipe, true, rx, []⟩
    | (.ready (.error error), rx) => ⟨.none, pipe, true, rx, malformed (.output output) error⟩

def selectOutput (output : Output) (lineBuffered : Bool) (pipe : Pipe) (disabled : Bool) (rx : RxLocal ρ)
    (readFirst answered : Bool) : Selection ρ :=
  if readFirst then
    match pipe.pollRead lineBuffered answered with
    | (.ready read, pipe) => ⟨.data read, pipe, disabled, rx, []⟩
    | (.pending, pipe) => selectClose output pipe disabled rx
  else
    let received := selectClose output pipe disabled rx
    match received.branch with
    | .close => received
    | .none | .data _ =>
      match pipe.pollRead lineBuffered answered with
      | (.ready read, pipe) => { received with branch := .data read, pipe }
      | (.pending, pipe) => { received with pipe }

def endOutput (output : Output) (rx : RxLocal ρ) (events : List Event) (result : Ending) : Turn OutputTask ρ :=
  ⟨.ended result, rx, events ++ [ending (.output output) result]⟩

def handleOutput (output : Output) (selected : Selection ρ) : Turn OutputTask ρ :=
  match selected.branch with
  | .none => ⟨.reading selected.pipe selected.disabled, selected.rx, selected.events⟩
  | .data (.error error) => endOutput output selected.rx selected.events (.error (.io error))
  | .data (.ok (some data)) =>
    ⟨.sending selected.pipe (.send (output.message (.data data))), selected.rx, selected.events⟩
  | .data (.ok none) =>
    ⟨.finishing (.sendAndFlush (output.message .closed)), selected.rx, selected.events⟩
  | .close =>
    -- The descriptor is closed under the reader, and the loop goes on reading.
    let events := selected.events ++ [.closeHandled output selected.pipe.buffer]
    match selected.pipe.close with
    | .error errno => endOutput output selected.rx events (.error (.closing output errno))
    | .ok pipe => ⟨.reading pipe false, selected.rx, events⟩

def OutputTask.step (this : OutputTask) (output : Output) (lineBuffered : Bool) (rx : RxLocal ρ) :
    OutputTurn → Option (Turn OutputTask ρ)
  | .select readFirst answered =>
    match this with
    | .reading pipe disabled =>
      some (handleOutput output (selectOutput output lineBuffered pipe disabled rx readFirst answered))
    | .sending _ _ | .finishing _ | .ended _ => none
  | .send polled =>
    match this with
    | .sending pipe send =>
      match polled.outcome with
      | .pending => some ⟨.sending pipe (send.poll polled), rx, send.events polled⟩
      -- Every round of the loop starts with both branches enabled.
      | .ready (.ok ()) => some ⟨.reading pipe false, rx, send.events polled⟩
      | .ready (.error error) => some (endOutput output rx (send.events polled) (.error (.send error)))
    | .finishing send =>
      match polled.outcome with
      | .pending => some ⟨.finishing (send.poll polled), rx, send.events polled⟩
      | .ready result => some (endOutput output rx (send.events polled) (result.mapError .send))
    | .reading _ _ | .ended _ => none

end MinimalVm.Agent
