import MinimalVm.Agent.Closing
import MinimalVm.Agent.Conversation
import MinimalVm.Io.Mailbox

/-! Whom a host message is for, and what a step leaves alone.

Every part of the agent receives one type of message and says its own kind of
thing. Whatever it reads past on the way to its own mail stays for the others,
so a step of one part is not noticed in the mail of the rest.
-/

set_option autoImplicit false

namespace MinimalVm.Agent

open MinimalVm.Semantics MinimalVm.Protocol MinimalVm.Io

@[reducible] def Task.receiver : Task → Receiver
  | .main => .exec
  | .exit => .kill
  | .stdin => .stdin .optionBytes
  | .output .stdout => .stdout .stdio
  | .output .stderr => .stderr .stdio

/-- The part that receives a message. -/
def addressee : Message → Option Task
  | .exec _ => some .main
  | .kill _ => some .exit
  | .stdin _ => some .stdin
  | .stdout _ => some (.output .stdout)
  | .stderr _ => some (.output .stderr)
  | .started _ | .exited _ | .error _ | .noOp => none

def Action.task : Action → Task
  | .receive | .spawn _ | .start _ | .join | .fail _ | .close | .childExits _ => .main
  | .exit _ => .exit
  | .stdin _ => .stdin
  | .output stream _ => .output stream

theorem accepts_addressee (task : Task) (msg : Message) :
    Accepts task.receiver.Carrier msg = decide (addressee msg = some task) := by
  obtain _ | _ | _ | _ | _ := task <;> rcases msg with _ | _ | ⟨_ | _⟩ | ⟨_ | _⟩ | ⟨_ | _⟩ | _ | _ | _ | _ <;> rfl

theorem receivers_apart {task other : Task} (apart : task ≠ other) :
    Apart task.receiver.Carrier other.receiver.Carrier := by
  intro msg accepted
  rw [accepts_addressee] at accepted ⊢
  apply decide_eq_false
  intro same
  exact apart (Option.some.inj ((of_decide_eq_true accepted).symm.trans same))

/-! ## The receiving end -/

section
variable {ρ : Type} [MessageReader ρ]

/-- After a turn of a task the receiving end is as before, or polled once. -/
def PolledBy (task : Task) (rx rx' : RxLocal ρ) : Prop := rx' = rx ∨ rx' = (rx.pollRecv task.receiver.Carrier).2

omit [MessageReader ρ] in
theorem handleKill_rx (process : Process) (rx : RxLocal ρ) (kill : Except RecvError (Option Kill)) :
    (handleKill process rx kill).rx = rx := by
  obtain error | _ | kill := kill <;> rfl

omit [MessageReader ρ] in
theorem handleExit_rx (process : Process) (rx : RxLocal ρ) (exit : Except ArcErr Int32) :
    (handleExit process rx exit).rx = rx := by
  cases exit <;> rfl

def pollsKill (process : Process) (killFirst : Bool) (answer : Poll (Except IoError Int32)) : Bool :=
  killFirst || (process.pollWait answer).1.isPending

theorem selectExit_rx (process : Process) (rx : RxLocal ρ) (killFirst : Bool) (answer : Poll (Except IoError Int32)) :
    (selectExit process rx killFirst answer).rx =
      if pollsKill process killFirst answer then (rx.pollRecv Kill).2 else rx := by
  unfold selectExit pollsKill
  generalize rx.pollRecv Kill = received
  generalize process.pollWait answer = waited
  obtain ⟨_ | kill, rx'⟩ := received <;> obtain ⟨_ | exit, process'⟩ := waited <;> cases killFirst <;>
    simp [handleKill_rx, handleExit_rx, Poll.isPending]

theorem selectExit_polled (process : Process) (rx : RxLocal ρ) (killFirst : Bool)
    (answer : Poll (Except IoError Int32)) : PolledBy .exit rx (selectExit process rx killFirst answer).rx := by
  rw [selectExit_rx]
  split
  · exact .inr rfl
  · exact .inl rfl

theorem ExitTask.step_polled {task : ExitTask} {rx : RxLocal ρ} {turn : ExitTurn} {turned : Turn ExitTask ρ}
    (moved : task.step rx turn = some turned) : PolledBy .exit rx turned.rx := by
  cases ExitTask.step_turned moved with
  | select process killFirst answer => exact selectExit_polled process rx killFirst answer
  | sends process send takes => exact .inl rfl
  | sendFailed process send takes error => exact .inl rfl
  | sent process send => exact .inl rfl

theorem StdinTask.step_polled {task : StdinTask} {rx : RxLocal ρ} {turn : StdinTurn} {turned : Turn StdinTask ρ}
    (moved : task.step rx turn = some turned) : PolledBy .stdin rx turned.rx := by
  cases StdinTask.step_turned moved with
  | recv =>
    right
    obtain _ | error | _ | ⟨_ | bytes⟩ := (rx.pollRecv (Stdin (Option Bytes))).1 <;> rfl
  | write bytes answer =>
    left
    unfold writeStdin
    split
    · rfl
    · split
      · rfl
      · rfl
      · split <;> rfl
  | sends send takes => exact .inl rfl
  | sendFailed send takes error => exact .inl rfl
  | sent send => exact .inl rfl

theorem Output.pollRecv_rx (output : Output) (rx : RxLocal ρ) :
    (output.pollRecv rx).2 = (rx.pollRecv (Task.output output).receiver.Carrier).2 := by
  cases output <;> rfl

theorem selectClose_polled_rx (output : Output) (pipe : Pipe) (disabled : Bool) (rx : RxLocal ρ) :
    PolledBy (.output output) rx (selectClose output pipe disabled rx).rx := by
  unfold selectClose PolledBy
  rw [← Output.pollRecv_rx]
  split
  · exact .inl rfl
  · generalize output.pollRecv rx = result
    obtain ⟨_ | error | _ | bytes | _, rx'⟩ := result <;> exact .inr rfl

theorem selectOutput_polled (output : Output) (lineBuffered : Bool) (pipe : Pipe) (disabled : Bool)
    (rx : RxLocal ρ) (readFirst answered : Bool) :
    PolledBy (.output output) rx (selectOutput output lineBuffered pipe disabled rx readFirst answered).rx := by
  unfold selectOutput
  generalize pipe.pollRead lineBuffered answered = polled
  obtain ⟨_ | read, pipe'⟩ := polled
  · cases readFirst with
    | true => exact selectClose_polled_rx output pipe' disabled rx
    | false =>
      have received := selectClose_polled_rx output pipe disabled rx
      rw [if_neg Bool.false_ne_true]
      dsimp only
      split <;> exact received
  · cases readFirst with
    | true => exact .inl rfl
    | false =>
      have received := selectClose_polled_rx output pipe disabled rx
      rw [if_neg Bool.false_ne_true]
      dsimp only
      split <;> exact received

omit [MessageReader ρ] in
theorem handleOutput_rx (output : Output) (selected : Selection ρ) :
    (handleOutput output selected).rx = selected.rx := by
  obtain ⟨_ | ⟨error | _ | bytes⟩ | _, pipe, disabled, rx, events⟩ := selected
  · rfl
  · rfl
  · rfl
  · rfl
  · unfold handleOutput
    cases pipe.close <;> rfl

theorem OutputTask.step_polled {task : OutputTask} {output : Output} {lineBuffered : Bool} {rx : RxLocal ρ}
    {turn : OutputTurn} {turned : Turn OutputTask ρ}
    (moved : task.step output lineBuffered rx turn = some turned) : PolledBy (.output output) rx turned.rx := by
  cases OutputTask.step_turned moved with
  | select pipe disabled readFirst answered =>
    rw [handleOutput_rx]
    exact selectOutput_polled output lineBuffered pipe disabled rx readFirst answered
  | sends pipe send takes => exact .inl rfl
  | sendFailed pipe send takes error => exact .inl rfl
  | sent pipe send => exact .inl rfl
  | finishes send takes => exact .inl rfl
  | finishFailed send takes error => exact .inl rfl
  | finished send => exact .inl rfl

omit [MessageReader ρ] in
theorem Agent.handleExec_rx (s : Agent ρ) (polled : PollRecv Exec) : (s.handleExec polled).rx = s.rx := by
  obtain _ | error | _ | exec := polled <;> rfl

theorem Agent.step_polled {s t : Agent ρ} {action : Action} (moved : s.step action = some t) :
    PolledBy action.task s.rx t.rx := by
  cases action with
  | receive =>
    simp only [step] at moved
    split at moved
    · cases moved
      exact .inr (handleExec_rx _ _)
    · cases moved
  | spawn outcome =>
    simp only [step] at moved
    split at moved
    · cases moved
      cases outcome <;> exact .inl rfl
    · cases moved
  | start polled =>
    simp only [step] at moved
    split at moved
    · cases moved
      cases polled <;> exact .inl rfl
    · cases moved
  | exit turn =>
    simp only [step] at moved
    split at moved
    · split at moved
      · obtain ⟨turned, stepped, rfl⟩ := Option.map_eq_some_iff.mp moved
        exact ExitTask.step_polled stepped
      · cases moved
    · cases moved
  | stdin turn =>
    simp only [step] at moved
    split at moved
    · obtain ⟨turned, stepped, rfl⟩ := Option.map_eq_some_iff.mp moved
      exact StdinTask.step_polled stepped
    · cases moved
  | output output turn =>
    simp only [step] at moved
    split at moved
    · obtain ⟨turned, stepped, rfl⟩ := Option.map_eq_some_iff.mp moved
      exact OutputTask.step_polled stepped
    · cases moved
  | join =>
    simp only [step] at moved
    split at moved
    · obtain ⟨result, joined, rfl⟩ := Option.map_eq_some_iff.mp moved
      cases result <;> exact .inl rfl
    · cases moved
  | fail polled =>
    simp only [step] at moved
    split at moved
    · cases moved
      cases polled <;> exact .inl rfl
    · cases moved
  | close =>
    simp only [step] at moved
    split at moved
    · cases moved
      exact .inl rfl
    · cases moved
  | childExits status =>
    simp only [step] at moved
    split at moved
    · cases moved
      exact .inl rfl
    · cases moved

end

abbrev Agent.mail (s : Agent Connection) (task : Task) : List task.receiver.Carrier :=
  Io.mail task.receiver.Carrier s.rx.messages

theorem Agent.step_mail {s t : Agent Connection} {action : Action} (moved : s.step action = some t) {task : Task}
    (apart : action.task ≠ task) : t.mail task = s.mail task := by
  rcases step_polled moved with same | polled
  · rw [mail, same]
  · rw [mail, polled]
    exact RxLocal.pollRecv_mail_apart (receivers_apart apart) s.rx

/-! ## What a step shows -/

/-- Some events are the doings of one part: what they say is said by it, and
what they tell about a task is told about none but that one. -/
structure DoneBy (task : Task) (events : List Event) : Prop where
  spoken : SpokenBy task (logOf events)
  about : ∀ other, task ≠ other → ¬ Shows (Event.isOf other) events

theorem doneBy_quiet {task : Task} {events : List Event} (silent : logOf events = [])
    (about : ∀ other, task ≠ other → ¬ Shows (Event.isOf other) events) : DoneBy task events :=
  ⟨silent ▸ spokenBy_nil task, about⟩

theorem doneBy_send {task : Task} {send : Send} (own : speaker send.msg = some task) (polled : SendPoll) :
    DoneBy task (send.events polled) where
  spoken := (logOf_send send polled).symm ▸ newly_spokenBy own polled
  about _ _ := isOf_send send polled

theorem AgentMove.doneBy {ρ : Type} [MessageReader ρ] {s t : Agent ρ} {action : Action} (move : AgentMove s action t)
    (said : Converses s.events s.phase) : ∃ more, t.events = s.events ++ more ∧ DoneBy action.task more := by
  have silent : DoneBy action.task [] := doneBy_quiet rfl fun _ _ => shows_nil
  cases move with
  | receives rx phase => exact ⟨[], (List.append_nil _).symm, silent⟩
  | refuses rx error phase => exact ⟨_, rfl, doneBy_quiet (logOf_malformed _ _) fun _ apart => isOf_malformed apart error⟩
  | disconnected | requested | spawnFailed | joined | joinFailed | closes => exact ⟨_, rfl, silent⟩
  | spawned child phase => exact ⟨_, rfl, doneBy_quiet rfl fun _ _ => by simp [Event.isOf, Event.task?]⟩
  | childExits status alive => exact ⟨_, rfl, doneBy_quiet rfl fun _ _ => by simp [Event.isOf, Event.task?]⟩
  | starts takes phase =>
    rw [phase] at said
    exact ⟨_, rfl, doneBy_send (said.1 ▸ rfl) _⟩
  | started phase =>
    rw [phase] at said
    exact ⟨_, rfl, doneBy_send (said.1 ▸ rfl) _⟩
  -- The signal of the drop is not a message.
  | @startFailed lineBuffered process child send takes error phase =>
    rw [phase] at said
    have sends : DoneBy .main (send.events (.failed takes error)) := doneBy_send (said.1 ▸ rfl) _
    refine ⟨_, rfl, ?_, fun other apart => ?_⟩
    · rw [logOf_append, logOf_signalled, List.append_nil]
      exact sends.spoken
    · simp [Event.isOf, Event.task?]
  | exit turned phase allowed stepped =>
    rw [phase] at said
    obtain ⟨started, body, -, tasksSaid⟩ := said
    have turn := ExitTask.step_move stepped
    exact ⟨_, rfl, (turn.said tasksSaid.exit).2, fun other apart => turn.others apart⟩
  | stdin turned phase stepped =>
    rw [phase] at said
    obtain ⟨started, body, -, tasksSaid⟩ := said
    have turn := StdinTask.step_move stepped
    exact ⟨_, rfl, (turn.said tasksSaid.stdin).2, fun other apart => turn.others apart⟩
  | @output tasks output turn turned phase stepped =>
    rw [phase] at said
    obtain ⟨started, body, -, tasksSaid⟩ := said
    have turn := OutputTask.step_move stepped
    exact ⟨_, rfl, (turn.said (tasksSaid.output output)).2, fun other apart => turn.others apart⟩
  | reports takes phase =>
    rw [phase] at said
    exact ⟨_, rfl, doneBy_send (said.1 ▸ rfl) _⟩
  | reported phase =>
    rw [phase] at said
    exact ⟨_, rfl, doneBy_send (said.1 ▸ rfl) _⟩
  | reportFailed takes cause phase =>
    rw [phase] at said
    exact ⟨_, rfl, doneBy_send (said.1 ▸ rfl) _⟩

end MinimalVm.Agent
