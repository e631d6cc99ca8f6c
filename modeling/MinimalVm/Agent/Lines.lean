import MinimalVm.Agent.Main

/-! The agent over bytes does what the agent over lines does.

The tasks touch the connection only through typed receives, so a run over the
bytes of a connection is the same run over the lines that these bytes hold.
-/

set_option autoImplicit false

namespace MinimalVm.Agent

open MinimalVm.Semantics MinimalVm.Protocol MinimalVm.Io

variable {parse : Bytes → Except ParseError Message}

def Turn.toLines {T : Type} (this : Turn T (MsgReader parse)) : Turn T Connection :=
  ⟨this.task, this.rx.toLines, this.events⟩

def Agent.toLines (this : Agent (MsgReader parse)) : Agent Connection :=
  ⟨this.rx.toLines, this.phase, this.child, this.events⟩

theorem handleKill_toLines (process : Process) (rx : RxLocal (MsgReader parse))
    (kill : Except RecvError (Option Kill)) :
    handleKill process rx.toLines kill = (handleKill process rx kill).toLines := by
  obtain error | _ | kill := kill <;> rfl

theorem handleExit_toLines (process : Process) (rx : RxLocal (MsgReader parse)) (exit : Except ArcErr Int32) :
    handleExit process rx.toLines exit = (handleExit process rx exit).toLines := by
  obtain error | status := exit <;> rfl

theorem selectExit_toLines (process : Process) (rx : RxLocal (MsgReader parse)) (killFirst : Bool)
    (answer : Poll (Except IoError Int32)) :
    selectExit process rx.toLines killFirst answer = (selectExit process rx killFirst answer).toLines := by
  unfold selectExit
  rw [RxLocal.pollRecv_toLines]
  rcases rx.pollRecv Kill with ⟨_ | kill, rx'⟩ <;> rcases process.pollWait answer with ⟨_ | exit, process'⟩ <;>
    cases killFirst <;> first | rfl | exact handleKill_toLines _ _ _ | exact handleExit_toLines _ _ _

theorem ExitTask.step_toLines (task : ExitTask) (rx : RxLocal (MsgReader parse)) (turn : ExitTurn) :
    task.step rx.toLines turn = (task.step rx turn).map Turn.toLines := by
  cases turn with
  | select killFirst answer =>
    cases task with
    | waiting process => exact congrArg some (selectExit_toLines process rx killFirst answer)
    | sending process send => rfl
    | ended result => rfl
  | send polled =>
    cases task with
    | waiting process => rfl
    | sending process send => cases polled <;> rfl
    | ended result => rfl

theorem handleStdin_toLines (rx : RxLocal (MsgReader parse)) (received : PollRecv (Stdin (Option Bytes))) :
    handleStdin rx.toLines received = (handleStdin rx received).toLines := by
  obtain _ | error | _ | ⟨_ | bytes⟩ := received <;> rfl

theorem writeStdin_toLines (bytes : Bytes) (rx : RxLocal (MsgReader parse)) (answer : Poll (Except IoError Nat)) :
    writeStdin bytes rx.toLines answer = (writeStdin bytes rx answer).toLines := by
  unfold writeStdin
  split
  · rfl
  · split
    · rfl
    · rfl
    · split <;> rfl

theorem StdinTask.step_toLines (task : StdinTask) (rx : RxLocal (MsgReader parse)) (turn : StdinTurn) :
    task.step rx.toLines turn = (task.step rx turn).map Turn.toLines := by
  cases turn with
  | recv =>
    cases task with
    | receiving =>
      simp only [step, RxLocal.pollRecv_toLines, handleStdin_toLines, Option.map_some]
    | writing bytes => rfl
    | sending send => rfl
    | ended result => rfl
  | write answer =>
    cases task with
    | writing bytes => exact congrArg some (writeStdin_toLines bytes rx answer)
    | receiving => rfl
    | sending send => rfl
    | ended result => rfl
  | send polled =>
    cases task with
    | sending send => cases polled <;> rfl
    | receiving => rfl
    | writing bytes => rfl
    | ended result => rfl

def Selection.toLines (this : Selection (MsgReader parse)) : Selection Connection :=
  ⟨this.branch, this.pipe, this.disabled, this.rx.toLines, this.events⟩

theorem Output.pollRecv_toLines (output : Output) (rx : RxLocal (MsgReader parse)) :
    output.pollRecv rx.toLines = ((output.pollRecv rx).1, (output.pollRecv rx).2.toLines) := by
  cases output <;> simp only [pollRecv, RxLocal.pollRecv_toLines]

theorem selectClose_toLines (output : Output) (pipe : Pipe) (disabled : Bool) (rx : RxLocal (MsgReader parse)) :
    selectClose output pipe disabled rx.toLines = (selectClose output pipe disabled rx).toLines := by
  unfold selectClose
  rw [Output.pollRecv_toLines]
  split
  · rfl
  · obtain ⟨_ | error | _ | bytes | ⟨⟨⟩⟩, rx'⟩ := output.pollRecv rx <;> rfl

theorem selectOutput_toLines (output : Output) (lineBuffered : Bool) (pipe : Pipe) (disabled : Bool)
    (rx : RxLocal (MsgReader parse)) (readFirst answered : Bool) :
    selectOutput output lineBuffered pipe disabled rx.toLines readFirst answered =
      (selectOutput output lineBuffered pipe disabled rx readFirst answered).toLines := by
  unfold selectOutput
  rcases pipe.pollRead lineBuffered answered with ⟨_ | read, pipe'⟩
  · split
    · exact selectClose_toLines output pipe' disabled rx
    · rw [selectClose_toLines]
      rcases selectClose output pipe disabled rx with ⟨_ | _ | _, pipe'', disabled', rx', events⟩ <;> rfl
  · split
    · rfl
    · rw [selectClose_toLines]
      rcases selectClose output pipe disabled rx with ⟨_ | _ | _, pipe'', disabled', rx', events⟩ <;> rfl

theorem handleOutput_toLines (output : Output) (selected : Selection (MsgReader parse)) :
    handleOutput output selected.toLines = (handleOutput output selected).toLines := by
  obtain ⟨_ | ⟨error | _ | bytes⟩ | _, pipe, disabled, rx, events⟩ := selected
  · rfl
  · rfl
  · rfl
  · rfl
  · simp only [handleOutput, Selection.toLines]
    cases pipe.close <;> rfl

theorem OutputTask.step_toLines (task : OutputTask) (output : Output) (lineBuffered : Bool)
    (rx : RxLocal (MsgReader parse)) (turn : OutputTurn) :
    task.step output lineBuffered rx.toLines turn = (task.step output lineBuffered rx turn).map Turn.toLines := by
  cases turn with
  | select readFirst answered =>
    cases task with
    | reading pipe disabled =>
      simp only [step, selectOutput_toLines, handleOutput_toLines, Option.map_some]
    | sending pipe send => rfl
    | finishing send => rfl
    | ended result => rfl
  | send polled =>
    cases task with
    | reading pipe disabled => rfl
    | sending pipe send => cases polled <;> rfl
    | finishing send => cases polled <;> rfl
    | ended result => rfl

namespace Agent

variable (s : Agent (MsgReader parse))

theorem handleExec_toLines (polled : PollRecv Exec) :
    s.toLines.handleExec polled = (s.handleExec polled).toLines := by
  obtain _ | error | _ | exec := polled <;> rfl

theorem turned_toLines {T : Type} (tasks : T → Tasks) (turn : Option (Turn T (MsgReader parse))) :
    (turn.map Turn.toLines).map (s.toLines.turned tasks) = (turn.map (s.turned tasks)).map toLines := by
  cases turn <;> rfl

theorem step_toLines (action : Action) : s.toLines.step action = (s.step action).map toLines := by
  obtain ⟨rx, phase, child, events⟩ := s
  -- Only receiving looks at the bytes. All else is the same step.
  cases action with
  | receive =>
    cases phase with
    | receiving =>
      simp only [step, toLines, RxLocal.pollRecv_toLines, Option.map_some]
      exact congrArg some (handleExec_toLines ⟨(rx.pollRecv Exec).2, .receiving, child, events⟩ _)
    | _ => rfl
  | spawn outcome =>
    cases phase with
    | spawning exec => cases outcome <;> rfl
    | _ => rfl
  | start polled =>
    cases phase with
    | starting lineBuffered process spawned send => cases polled <;> rfl
    | _ => rfl
  | exit turn =>
    cases phase with
    | running tasks =>
      simp only [step, toLines, ExitTask.step_toLines]
      split
      · exact turned_toLines ⟨rx, .running tasks, child, events⟩ _ _
      · rfl
    | _ => rfl
  | stdin turn =>
    cases phase with
    | running tasks =>
      simp only [step, toLines, StdinTask.step_toLines]
      exact turned_toLines ⟨rx, .running tasks, child, events⟩ _ _
    | _ => rfl
  | output output turn =>
    cases phase with
    | running tasks =>
      simp only [step, toLines, OutputTask.step_toLines]
      exact turned_toLines ⟨rx, .running tasks, child, events⟩ _ _
    | _ => rfl
  | join =>
    cases phase with
    | running tasks =>
      simp only [step, toLines]
      obtain _ | error | _ := tasks.join <;> rfl
    | _ => rfl
  | fail polled =>
    cases phase with
    | failing error send => cases polled <;> rfl
    | _ => rfl
  | close =>
    cases phase with
    | closing status => rfl
    | _ => rfl
  | childExits status => cases child <;> rfl

/-- A run over bytes is the same run over the lines they hold. -/
theorem execute_toLines (actions : List Action) :
    execute step s.toLines actions = (execute step s actions).map toLines :=
  execute_map step_toLines s actions

end Agent
end MinimalVm.Agent
