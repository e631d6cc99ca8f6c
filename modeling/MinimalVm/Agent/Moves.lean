import MinimalVm.Agent.Main

/-! What each turn of the agent can come to.

The tasks are described as small machines without their receivers: a move goes
from one state of a task to another and shows some events. Every turn of the
source's tasks is one of these moves, and every step of the agent either is a
turn or changes the phase in one of a few ways.
-/

set_option autoImplicit false

namespace MinimalVm.Agent

open MinimalVm.Semantics MinimalVm.Protocol MinimalVm.Io

variable {ρ : Type} [MessageReader ρ]

/-! ## Turns

In which states a task takes a turn, and what the turn makes of them.
-/

inductive ExitTurned (rx : RxLocal ρ) : ExitTask → ExitTurn → Turn ExitTask ρ → Prop
  | select (process : Process) (killFirst : Bool) (answer : Poll (Except IoError Int32)) :
      ExitTurned rx (.waiting process) (.select killFirst answer) (selectExit process rx killFirst answer)
  | sends (process : Process) (send : Send) (takes : Bool) :
      ExitTurned rx (.sending process send) (.send (.pending takes))
        ⟨.sending process (send.poll (.pending takes)), rx, send.events (.pending takes)⟩
  | sendFailed (process : Process) (send : Send) (takes : Bool) (error : SendError) :
      ExitTurned rx (.sending process send) (.send (.failed takes error))
        (endExit process rx (send.events (.failed takes error)) (.error (.send error)))
  | sent (process : Process) (send : Send) :
      ExitTurned rx (.sending process send) (.send .sent) (endExit process rx (send.events .sent) (.ok ()))

theorem ExitTask.step_turned {task : ExitTask} {rx : RxLocal ρ} {turn : ExitTurn} {turned : Turn ExitTask ρ}
    (moved : task.step rx turn = some turned) : ExitTurned rx task turn turned := by
  cases turn with
  | select killFirst answer =>
    cases task with
    | waiting process =>
      cases moved
      exact .select process killFirst answer
    | sending process send => cases moved
    | ended result => cases moved
  | send polled =>
    cases task with
    | waiting process => cases moved
    | ended result => cases moved
    | sending process send =>
      cases polled with
      | pending takes =>
        cases moved
        exact .sends process send takes
      | failed takes error =>
        cases moved
        exact .sendFailed process send takes error
      | sent =>
        cases moved
        exact .sent process send

inductive StdinTurned (rx : RxLocal ρ) : StdinTask → StdinTurn → Turn StdinTask ρ → Prop
  | recv : StdinTurned rx .receiving .recv
      (handleStdin (rx.pollRecv (Stdin (Option Bytes))).2 (rx.pollRecv (Stdin (Option Bytes))).1)
  | write (bytes : Bytes) (answer : Poll (Except IoError Nat)) :
      StdinTurned rx (.writing bytes) (.write answer) (writeStdin bytes rx answer)
  | sends (send : Send) (takes : Bool) :
      StdinTurned rx (.sending send) (.send (.pending takes))
        ⟨.sending (send.poll (.pending takes)), rx, send.events (.pending takes)⟩
  | sendFailed (send : Send) (takes : Bool) (error : SendError) :
      StdinTurned rx (.sending send) (.send (.failed takes error))
        (endStdin rx (send.events (.failed takes error)) (.error (.send error)))
  | sent (send : Send) :
      StdinTurned rx (.sending send) (.send .sent) (endStdin rx (send.events .sent) (.ok ()))

theorem StdinTask.step_turned {task : StdinTask} {rx : RxLocal ρ} {turn : StdinTurn} {turned : Turn StdinTask ρ}
    (moved : task.step rx turn = some turned) : StdinTurned rx task turn turned := by
  cases turn with
  | recv =>
    cases task with
    | receiving =>
      cases moved
      exact .recv
    | writing bytes => cases moved
    | sending send => cases moved
    | ended result => cases moved
  | write answer =>
    cases task with
    | writing bytes =>
      cases moved
      exact .write bytes answer
    | receiving => cases moved
    | sending send => cases moved
    | ended result => cases moved
  | send polled =>
    cases task with
    | receiving => cases moved
    | writing bytes => cases moved
    | ended result => cases moved
    | sending send =>
      cases polled with
      | pending takes =>
        cases moved
        exact .sends send takes
      | failed takes error =>
        cases moved
        exact .sendFailed send takes error
      | sent =>
        cases moved
        exact .sent send

inductive OutputTurned (output : Output) (lineBuffered : Bool) (rx : RxLocal ρ) :
    OutputTask → OutputTurn → Turn OutputTask ρ → Prop
  | select (pipe : Pipe) (disabled readFirst answered : Bool) :
      OutputTurned output lineBuffered rx (.reading pipe disabled) (.select readFirst answered)
        (handleOutput output (selectOutput output lineBuffered pipe disabled rx readFirst answered))
  | sends (pipe : Pipe) (send : Send) (takes : Bool) :
      OutputTurned output lineBuffered rx (.sending pipe send) (.send (.pending takes))
        ⟨.sending pipe (send.poll (.pending takes)), rx, send.events (.pending takes)⟩
  | sendFailed (pipe : Pipe) (send : Send) (takes : Bool) (error : SendError) :
      OutputTurned output lineBuffered rx (.sending pipe send) (.send (.failed takes error))
        (endOutput output rx (send.events (.failed takes error)) (.error (.send error)))
  | sent (pipe : Pipe) (send : Send) :
      OutputTurned output lineBuffered rx (.sending pipe send) (.send .sent)
        ⟨.reading pipe false, rx, send.events .sent⟩
  | finishes (send : Send) (takes : Bool) :
      OutputTurned output lineBuffered rx (.finishing send) (.send (.pending takes))
        ⟨.finishing (send.poll (.pending takes)), rx, send.events (.pending takes)⟩
  | finishFailed (send : Send) (takes : Bool) (error : SendError) :
      OutputTurned output lineBuffered rx (.finishing send) (.send (.failed takes error))
        (endOutput output rx (send.events (.failed takes error)) (.error (.send error)))
  | finished (send : Send) :
      OutputTurned output lineBuffered rx (.finishing send) (.send .sent)
        (endOutput output rx (send.events .sent) (.ok ()))

theorem OutputTask.step_turned {task : OutputTask} {output : Output} {lineBuffered : Bool} {rx : RxLocal ρ}
    {turn : OutputTurn} {turned : Turn OutputTask ρ}
    (moved : task.step output lineBuffered rx turn = some turned) :
    OutputTurned output lineBuffered rx task turn turned := by
  cases turn with
  | select readFirst answered =>
    cases task with
    | reading pipe disabled =>
      cases moved
      exact .select pipe disabled readFirst answered
    | sending pipe send => cases moved
    | finishing send => cases moved
    | ended result => cases moved
  | send polled =>
    cases task with
    | reading pipe disabled => cases moved
    | ended result => cases moved
    | sending pipe send =>
      cases polled with
      | pending takes =>
        cases moved
        exact .sends pipe send takes
      | failed takes error =>
        cases moved
        exact .sendFailed pipe send takes error
      | sent =>
        cases moved
        exact .sent pipe send
    | finishing send =>
      cases polled with
      | pending takes =>
        cases moved
        exact .finishes send takes
      | failed takes error =>
        cases moved
        exact .finishFailed send takes error
      | sent =>
        cases moved
        exact .finished send

/-! ## The exit task -/

def pollsWait (rx : RxLocal ρ) (killFirst : Bool) : Bool := !killFirst || (rx.pollRecv Kill).1.isPending

inductive ExitMove (rx : RxLocal ρ) : ExitTask → ExitTurn → List Event → ExitTask → Prop
  | waits {process process' : Process} {killFirst : Bool} {answer : Poll (Except IoError Int32)}
      (signals : List Signal) : (∀ pid, process.Unawaited pid → process'.Unawaited pid) →
      ExitMove rx (.waiting process) (.select killFirst answer) (signals.map .signalled) (.waiting process')
  | recvFailed {process process' : Process} {killFirst : Bool} {answer : Poll (Except IoError Int32)}
      (error : RecvError) : (∀ pid, process.Unawaited pid → process'.Unawaited pid) →
      ExitMove rx (.waiting process) (.select killFirst answer)
        (malformed .exit error ++ .failed .exit (.recv error) :: process'.drop.1.map .signalled)
        (.ended (.error (.recv error)))
  | waitFailed {process : Process} {killFirst : Bool} {answer : Poll (Except IoError Int32)} (error : ArcErr)
      (signals : List Signal) : pollsWait rx killFirst = true →
      (∀ pid, process.Unawaited pid → ∃ cause, answer = .ready (.error cause)) →
      ExitMove rx (.waiting process) (.select killFirst answer)
        (.failed .exit (.wait error) :: signals.map .signalled) (.ended (.error (.wait error)))
  | exits {process : Process} {killFirst : Bool} {answer : Poll (Except IoError Int32)} (process' : Process)
      (status : Int32) : (∀ pid, process.Unawaited pid → answer = .ready (.ok status)) →
      ExitMove rx (.waiting process) (.select killFirst answer) []
        (.sending process' (.sendAndFlush (.exited ⟨status⟩)))
  | sends {process : Process} {send : Send} (takes : Bool) :
      ExitMove rx (.sending process send) (.send (.pending takes)) (send.events (.pending takes))
        (.sending process (send.poll (.pending takes)))
  | sent {process : Process} {send : Send} (signals : List Signal) :
      ExitMove rx (.sending process send) (.send .sent)
        (send.events .sent ++ .finished .exit :: signals.map .signalled) (.ended (.ok ()))
  | sendFailed {process : Process} {send : Send} (takes : Bool) (error : SendError) (signals : List Signal) :
      ExitMove rx (.sending process send) (.send (.failed takes error))
        (send.events (.failed takes error) ++ .failed .exit (.send error) :: signals.map .signalled)
        (.ended (.error (.send error)))

variable {process process' : Process} {killFirst : Bool} {answer : Poll (Except IoError Int32)}

theorem handleKill_move (kept : ∀ pid, process.Unawaited pid → process'.Unawaited pid) (rx rx' : RxLocal ρ)
    (kill : Except RecvError (Option Kill)) :
    ExitMove rx (.waiting process) (.select killFirst answer) (handleKill process' rx' kill).events
      (handleKill process' rx' kill).task := by
  obtain error | _ | kill := kill
  · exact .recvFailed error kept
  · exact .waits [] kept
  · exact .waits (process'.signal kill.signal) kept

theorem handleExit_move {rx : RxLocal ρ} {exit : Except ArcErr Int32} (rx' : RxLocal ρ)
    (polls : pollsWait rx killFirst = true) (polled : process.pollWait answer = (.ready exit, process')) :
    ExitMove rx (.waiting process) (.select killFirst answer) (handleExit process' rx' exit).events
      (handleExit process' rx' exit).task := by
  obtain error | status := exit
  · exact .waitFailed error process'.drop.1 polls fun pid => Process.pollWait_failed polled
  · exact .exits process' status fun pid => Process.pollWait_exited polled

theorem selectExit_move (process : Process) (rx : RxLocal ρ) (killFirst : Bool)
    (answer : Poll (Except IoError Int32)) :
    ExitMove rx (.waiting process) (.select killFirst answer) (selectExit process rx killFirst answer).events
      (selectExit process rx killFirst answer).task := by
  unfold selectExit
  cases killFirst with
  | true =>
    rw [if_pos rfl]
    split
    · exact handleKill_move (fun pid => Process.unawaited_dropWait) _ _ _
    · rename_i rx' received
      have polls : pollsWait rx true = true := by rw [pollsWait, received]; rfl
      split
      · exact handleExit_move _ polls ‹_›
      · rename_i waits
        exact .waits [] fun pid => Process.pollWait_pending waits
  | false =>
    rw [if_neg Bool.false_ne_true]
    split
    · exact handleExit_move _ rfl ‹_›
    · rename_i waits
      split
      · exact handleKill_move
          (fun pid before => Process.unawaited_dropWait (Process.pollWait_pending waits before)) _ _ _
      · exact .waits [] fun pid => Process.pollWait_pending waits

theorem ExitTask.step_move {task : ExitTask} {rx : RxLocal ρ} {turn : ExitTurn} {turned : Turn ExitTask ρ}
    (moved : task.step rx turn = some turned) : ExitMove rx task turn turned.events turned.task := by
  cases ExitTask.step_turned moved with
  | select process killFirst answer => exact selectExit_move process rx killFirst answer
  | sends process send takes => exact .sends takes
  | sendFailed process send takes error => exact .sendFailed takes error process.drop.1
  | sent process send => exact .sent process.drop.1

/-! ## The stdin task -/

inductive StdinMove : StdinTask → List Event → StdinTask → Prop
  | recvWaits : StdinMove .receiving [] .receiving
  | recvFailed (error : RecvError) :
      StdinMove .receiving (malformed .stdin error ++ [.failed .stdin (.recv error)])
        (.ended (.error (.recv error)))
  | data (bytes : Bytes) : StdinMove .receiving [] (.writing bytes)
  | closes : StdinMove .receiving [] (.sending (.sendAndFlush (.stdin .closed)))
  | wrote : StdinMove (.writing []) [] .receiving
  | writeWaits {bytes : Bytes} : StdinMove (.writing bytes) [] (.writing bytes)
  | writes {bytes : Bytes} (n : Nat) :
      StdinMove (.writing bytes) [.written (bytes.take n)] (.writing (bytes.drop n))
  | writeFailed {bytes : Bytes} (error : IoError) : bytes ≠ [] →
      StdinMove (.writing bytes) [.failed .stdin (.io error)] (.ended (.error (.io error)))
  | sends {send : Send} (takes : Bool) :
      StdinMove (.sending send) (send.events (.pending takes)) (.sending (send.poll (.pending takes)))
  | sent {send : Send} :
      StdinMove (.sending send) (send.events .sent ++ [.finished .stdin]) (.ended (.ok ()))
  | sendFailed {send : Send} (takes : Bool) (error : SendError) :
      StdinMove (.sending send) (send.events (.failed takes error) ++ [.failed .stdin (.send error)])
        (.ended (.error (.send error)))

omit [MessageReader ρ] in
theorem handleStdin_move (rx : RxLocal ρ) (received : PollRecv (Stdin (Option Bytes))) :
    StdinMove .receiving (handleStdin rx received).events (handleStdin rx received).task := by
  obtain _ | error | _ | ⟨_ | bytes⟩ := received
  · exact .recvWaits
  · exact .recvFailed error
  · exact .closes
  · exact .closes
  · exact .data bytes

omit [MessageReader ρ] in
theorem writeStdin_move (bytes : Bytes) (rx : RxLocal ρ) (answer : Poll (Except IoError Nat)) :
    StdinMove (.writing bytes) (writeStdin bytes rx answer).events (writeStdin bytes rx answer).task := by
  unfold writeStdin
  split
  · rename_i empty
    exact empty ▸ .wrote
  · rename_i nonempty
    split
    · exact .writeWaits
    · exact .writeFailed _ nonempty
    · split
      · exact .writeFailed _ nonempty
      · exact .writes _

theorem StdinTask.step_move {task : StdinTask} {rx : RxLocal ρ} {turn : StdinTurn}
    {turned : Turn StdinTask ρ} (moved : task.step rx turn = some turned) : StdinMove task turned.events turned.task := by
  cases StdinTask.step_turned moved with
  | recv => exact handleStdin_move (rx.pollRecv (Stdin (Option Bytes))).2 _
  | write bytes answer => exact writeStdin_move bytes rx answer
  | sends send takes => exact .sends takes
  | sendFailed send takes error => exact .sendFailed takes error
  | sent send => exact .sent

/-! ## The stdout and stderr tasks -/

inductive Overhears (output : Output) (rx : RxLocal ρ) : List Event → Prop
  | nothing : Overhears output rx []
  | malformed {cause : ParseError} : (output.pollRecv rx).1 = .ready (.error (.parse cause)) →
      Overhears output rx [.malformed (.output output) cause]

inductive OutputMove (output : Output) (rx : RxLocal ρ) :
    OutputTask → List Event → OutputTask → Prop
  | waits {pipe : Pipe} {disabled : Bool} {events : List Event} (pipe' : Pipe) (disabled' : Bool) :
      pipe'.closed = pipe.closed → Overhears output rx events →
      OutputMove output rx (.reading pipe disabled) events (.reading pipe' disabled')
  | data {pipe : Pipe} {disabled : Bool} {events : List Event} (pipe' : Pipe) (bytes : Bytes) :
      pipe'.closed = pipe.closed → Overhears output rx events →
      OutputMove output rx (.reading pipe disabled) events
        (.sending pipe' (.send (output.message (.data bytes))))
  | eof {pipe : Pipe} {disabled : Bool} {events : List Event} :
      pipe.closed = false → Overhears output rx events →
      OutputMove output rx (.reading pipe disabled) events
        (.finishing (.sendAndFlush (output.message .closed)))
  | readFailed {pipe : Pipe} {disabled : Bool} {events : List Event} (error : IoError) :
      Overhears output rx events →
      OutputMove output rx (.reading pipe disabled) (events ++ [.failed (.output output) (.io error)])
        (.ended (.error (.io error)))
  | close {pipe : Pipe} {disabled : Bool} (pipe' : Pipe) (buffer : Bytes) :
      pipe.closed = false → pipe'.closed = true →
      OutputMove output rx (.reading pipe disabled) [.closeHandled output buffer] (.reading pipe' false)
  | closeAgain {pipe : Pipe} {disabled : Bool} (buffer : Bytes) (errno : String) : pipe.closed = true →
      OutputMove output rx (.reading pipe disabled)
        [.closeHandled output buffer, .failed (.output output) (.closing output errno)]
        (.ended (.error (.closing output errno)))
  | sends {pipe : Pipe} {send : Send} (takes : Bool) :
      OutputMove output rx (.sending pipe send) (send.events (.pending takes))
        (.sending pipe (send.poll (.pending takes)))
  | sent {pipe : Pipe} {send : Send} :
      OutputMove output rx (.sending pipe send) (send.events .sent) (.reading pipe false)
  | sendFailed {pipe : Pipe} {send : Send} (takes : Bool) (error : SendError) :
      OutputMove output rx (.sending pipe send)
        (send.events (.failed takes error) ++ [.failed (.output output) (.send error)])
        (.ended (.error (.send error)))
  | finishes {send : Send} (takes : Bool) :
      OutputMove output rx (.finishing send) (send.events (.pending takes))
        (.finishing (send.poll (.pending takes)))
  | finished {send : Send} :
      OutputMove output rx (.finishing send) (send.events .sent ++ [.finished (.output output)])
        (.ended (.ok ()))
  | finishFailed {send : Send} (takes : Bool) (error : SendError) :
      OutputMove output rx (.finishing send)
        (send.events (.failed takes error) ++ [.failed (.output output) (.send error)])
        (.ended (.error (.send error)))

inductive ClosePolled (output : Output) (pipe : Pipe) (rx : RxLocal ρ) : Selection ρ → Prop
  | passed {disabled : Bool} {rx' : RxLocal ρ} {events : List Event} : Overhears output rx events →
      ClosePolled output pipe rx ⟨.none, pipe, disabled, rx', events⟩
  | closes {rx' : RxLocal ρ} : ClosePolled output pipe rx ⟨.close, pipe, false, rx', []⟩

theorem selectClose_polled (output : Output) (pipe : Pipe) (disabled : Bool) (rx : RxLocal ρ) :
    ClosePolled output pipe rx (selectClose output pipe disabled rx) := by
  unfold selectClose
  split
  · exact .passed .nothing
  · split
    · exact .passed .nothing
    · exact .closes
    · exact .passed .nothing
    · exact .passed .nothing
    · rename_i error rx' received
      cases error with
      | parse cause => exact .passed (.malformed (congrArg Prod.fst received))
      | read cause => exact .passed .nothing

/-- A selection leaves the descriptor as it is, and only an open one ends. -/
structure Selected (output : Output) (pipe : Pipe) (rx : RxLocal ρ) (selected : Selection ρ) : Prop where
  same : selected.pipe.closed = pipe.closed
  overhears : Overhears output rx selected.events
  eof : selected.branch = .data (.ok none) → pipe.closed = false
  quiet : selected.branch = .close → selected.events = []

theorem selectOutput_selected (output : Output) (lineBuffered : Bool) (pipe : Pipe) (disabled : Bool)
    (rx : RxLocal ρ) (readFirst answered : Bool) :
    Selected output pipe rx (selectOutput output lineBuffered pipe disabled rx readFirst answered) := by
  -- Both branches are known by what they leave of the pipe and by what they
  -- overhear, so it remains to see which of them completes.
  have kept := pipe.pollRead_closed lineBuffered answered
  have noEof (ended : (pipe.pollRead lineBuffered answered).1 = .ready (.ok none)) : pipe.closed = false :=
    Bool.eq_false_iff.mpr fun closed => Pipe.pollRead_no_eof closed lineBuffered answered ended
  generalize polled : pipe.pollRead lineBuffered answered = result at kept noEof
  obtain ⟨read, pipe'⟩ := result
  unfold selectOutput
  rw [polled]
  cases readFirst with
  | true =>
    rw [if_pos rfl]
    cases read with
    | ready read => exact ⟨kept, .nothing, fun ended => noEof (by cases ended; rfl), nofun⟩
    | pending =>
      have received := selectClose_polled output pipe' disabled rx
      dsimp only
      generalize selectClose output pipe' disabled rx = selected at received
      cases received with
      | passed overhears => exact ⟨kept, overhears, nofun, nofun⟩
      | closes => exact ⟨kept, .nothing, nofun, fun _ => rfl⟩
  | false =>
    rw [if_neg Bool.false_ne_true]
    have received := selectClose_polled output pipe disabled rx
    dsimp only
    generalize selectClose output pipe disabled rx = selected at received
    cases received with
    | closes => exact ⟨rfl, .nothing, nofun, fun _ => rfl⟩
    | passed overhears =>
      cases read with
      | ready read => exact ⟨kept, overhears, fun ended => noEof (by cases ended; rfl), nofun⟩
      | pending => exact ⟨kept, overhears, nofun, nofun⟩

theorem handleOutput_move {output : Output} {pipe : Pipe} {rx : RxLocal ρ} {selected : Selection ρ}
    (disabled : Bool) (from_ : Selected output pipe rx selected) :
    OutputMove output rx (.reading pipe disabled) (handleOutput output selected).events
      (handleOutput output selected).task := by
  obtain ⟨branch, pipe', disabled', rx', events⟩ := selected
  obtain ⟨same, overhears, eof, quiet⟩ := from_
  obtain _ | ⟨error | _ | bytes⟩ | _ := branch
  · exact .waits pipe' disabled' same overhears
  · exact .readFailed error overhears
  · exact .eof (eof rfl) overhears
  · exact .data pipe' bytes same overhears
  · -- A second close of one descriptor is the only one that fails.
    cases quiet rfl
    simp only [handleOutput, Pipe.close]
    split
    · rename_i closing
      split at closing
      · rename_i closed
        exact .closeAgain pipe'.buffer _ (same ▸ closed)
      · cases closing
    · rename_i closing
      split at closing
      · cases closing
      · rename_i opened
        cases closing
        exact .close _ pipe'.buffer (same ▸ Bool.eq_false_iff.mpr opened) rfl

theorem OutputTask.step_move {task : OutputTask} {output : Output} {lineBuffered : Bool} {rx : RxLocal ρ}
    {turn : OutputTurn} {turned : Turn OutputTask ρ}
    (moved : task.step output lineBuffered rx turn = some turned) :
    OutputMove output rx task turned.events turned.task := by
  cases OutputTask.step_turned moved with
  | select pipe disabled readFirst answered =>
    exact handleOutput_move disabled (selectOutput_selected output lineBuffered pipe disabled rx _ _)
  | sends pipe send takes => exact .sends takes
  | sendFailed pipe send takes error => exact .sendFailed takes error
  | sent pipe send => exact .sent
  | finishes send takes => exact .finishes takes
  | finishFailed send takes error => exact .finishFailed takes error
  | finished send => exact .finished

/-! ## The agent -/

inductive AgentMove (s : Agent ρ) : Action → Agent ρ → Prop
  | receives (rx : RxLocal ρ) : s.phase = .receiving → AgentMove s .receive { s with rx }
  | refuses (rx : RxLocal ρ) (error : RecvError) : s.phase = .receiving →
      AgentMove s .receive ({ s with rx }.failWith (.recv error) (malformed .main error))
  | disconnected (rx : RxLocal ρ) : s.phase = .receiving →
      AgentMove s .receive ({ s with rx }.failWith .connectionClosed [])
  | requested (rx : RxLocal ρ) (exec : Exec) : s.phase = .receiving →
      AgentMove s .receive ({ s with rx }.advance (.spawning exec) [])
  | spawnFailed {exec : Exec} (debug : String) : s.phase = .spawning exec →
      AgentMove s (.spawn (.error debug)) (s.failWith (.spawn debug) [])
  | spawned {exec : Exec} (child : SpawnedChild) : s.phase = .spawning exec →
      AgentMove s (.spawn (.ok child)) (s.handleSpawn exec (.ok child))
  | starts {lineBuffered : Bool} {process : Process} {child : SpawnedChild} {send : Send} (takes : Bool) :
      s.phase = .starting lineBuffered process child send →
      AgentMove s (.start (.pending takes))
        (s.advance (.starting lineBuffered process child (send.poll (.pending takes)))
          (send.events (.pending takes)))
  | started {lineBuffered : Bool} {process : Process} {child : SpawnedChild} {send : Send} :
      s.phase = .starting lineBuffered process child send →
      AgentMove s (.start .sent)
        (s.advance (.running (.new lineBuffered process child)) (send.events .sent))
  | startFailed {lineBuffered : Bool} {process : Process} {child : SpawnedChild} {send : Send} (takes : Bool)
      (error : SendError) : s.phase = .starting lineBuffered process child send →
      AgentMove s (.start (.failed takes error))
        (s.failWith (.send error)
          (send.events (.failed takes error) ++ process.drop.1.map .signalled))
  | exit {tasks : Tasks} {turn : ExitTurn} (turned : Turn ExitTask ρ) : s.phase = .running tasks →
      s.child.allows turn = true → tasks.exit.step s.rx turn = some turned →
      AgentMove s (.exit turn) (s.turned (fun exit => { tasks with exit }) turned)
  | stdin {tasks : Tasks} {turn : StdinTurn} (turned : Turn StdinTask ρ) : s.phase = .running tasks →
      tasks.stdin.step s.rx turn = some turned →
      AgentMove s (.stdin turn) (s.turned (fun stdin => { tasks with stdin }) turned)
  | output {tasks : Tasks} {output : Output} {turn : OutputTurn} (turned : Turn OutputTask ρ) :
      s.phase = .running tasks →
      (tasks.output output).step output tasks.lineBuffered s.rx turn = some turned →
      AgentMove s (.output output turn) (s.turned (fun task => tasks.setOutput task output) turned)
  | joined {tasks : Tasks} : s.phase = .running tasks → tasks.join = some (.ok ()) →
      AgentMove s .join (s.advance (.closing (.ok ())) [])
  | joinFailed {tasks : Tasks} {error : AgentError} : s.phase = .running tasks →
      tasks.join = some (.error error) → AgentMove s .join (s.failWith error [])
  | reports {error : AgentError} {send : Send} (takes : Bool) : s.phase = .failing error send →
      AgentMove s (.fail (.pending takes))
        (s.advance (.failing error (send.poll (.pending takes))) (send.events (.pending takes)))
  | reported {error : AgentError} {send : Send} : s.phase = .failing error send →
      AgentMove s (.fail .sent) (s.advance (.closing (.error error)) (send.events .sent))
  | reportFailed {error : AgentError} {send : Send} (takes : Bool) (cause : SendError) :
      s.phase = .failing error send →
      AgentMove s (.fail (.failed takes cause))
        (s.advance (.closing (.error error)) (send.events (.failed takes cause)))
  | closes {status : Ending} : s.phase = .closing status →
      AgentMove s .close (s.advance (.done status) [])
  | childExits {pid : UInt32} (status : Int32) : s.child = .running pid →
      AgentMove s (.childExits status)
        { s with child := .exited pid status, events := s.events ++ [.childExited pid status] }

namespace Agent

variable {s t : Agent ρ}

theorem handleExec_move (received : s.phase = .receiving) (rx : RxLocal ρ) (polled : PollRecv Exec) :
    AgentMove s .receive ({ s with rx }.handleExec polled) := by
  obtain _ | error | _ | exec := polled
  · exact .receives rx received
  · exact .refuses rx error received
  · exact .disconnected rx received
  · exact .requested rx exec received

theorem step_move {action : Action} (moved : s.step action = some t) : AgentMove s action t := by
  -- Each action has one guard on the phase. Where it fails there is no step.
  cases action with
  | receive =>
    simp only [step] at moved
    split at moved
    · cases moved
      exact handleExec_move ‹_› _ _
    · cases moved
  | spawn outcome =>
    simp only [step] at moved
    split at moved
    · cases moved
      obtain debug | child := outcome
      · exact .spawnFailed debug ‹_›
      · exact .spawned child ‹_›
    · cases moved
  | start polled =>
    simp only [step] at moved
    split at moved
    · cases moved
      obtain takes | ⟨takes, error⟩ | _ := polled
      · exact .starts takes ‹_›
      · exact .startFailed takes error ‹_›
      · exact .started ‹_›
    · cases moved
  | exit turn =>
    simp only [step] at moved
    split at moved
    · split at moved
      · obtain ⟨turned, stepped, rfl⟩ := Option.map_eq_some_iff.mp moved
        exact .exit turned ‹_› ‹_› stepped
      · cases moved
    · cases moved
  | stdin turn =>
    simp only [step] at moved
    split at moved
    · obtain ⟨turned, stepped, rfl⟩ := Option.map_eq_some_iff.mp moved
      exact .stdin turned ‹_› stepped
    · cases moved
  | output output turn =>
    simp only [step] at moved
    split at moved
    · obtain ⟨turned, stepped, rfl⟩ := Option.map_eq_some_iff.mp moved
      exact .output turned ‹_› stepped
    · cases moved
  | join =>
    simp only [step] at moved
    split at moved
    · obtain ⟨result, joined, rfl⟩ := Option.map_eq_some_iff.mp moved
      obtain error | _ := result
      · exact .joinFailed ‹_› joined
      · exact .joined ‹_› joined
    · cases moved
  | fail polled =>
    simp only [step] at moved
    split at moved
    · cases moved
      obtain takes | ⟨takes, error⟩ | _ := polled
      · exact .reports takes ‹_›
      · exact .reportFailed takes error ‹_›
      · exact .reported ‹_›
    · cases moved
  | close =>
    simp only [step] at moved
    split at moved
    · cases moved
      exact .closes ‹_›
    · cases moved
  | childExits status =>
    simp only [step] at moved
    split at moved
    · cases moved
      exact .childExits status ‹_›
    · cases moved

end Agent

section
variable {s t : Agent ρ}

theorem AgentMove.grows {action : Action} (move : AgentMove s action t) : ∃ more, t.events = s.events ++ more := by
  cases move with
  | receives rx phase => exact ⟨[], (List.append_nil _).symm⟩
  | _ => exact ⟨_, rfl⟩

theorem execute_grows {actions : List Action} (run : execute Agent.step s actions = some t) :
    ∃ more, t.events = s.events ++ more := by
  refine invariant_execute (fun u : Agent ρ => ∃ more, u.events = s.events ++ more) ?_
    ⟨[], (List.append_nil _).symm⟩ run
  rintro u action v ⟨more, grown⟩ moved
  obtain ⟨later, grown'⟩ := (Agent.step_move moved).grows
  exact ⟨more ++ later, by rw [grown', grown, List.append_assoc]⟩

end

end MinimalVm.Agent
