import MinimalVm.Agent.Conversation
import MinimalVm.Agent.Kinds

/-! What becomes of a line that is no message.

A malformed line is an error to whichever part of the agent happens to read it.
The exit and stdin tasks end with it, and the agent reports it. An output task
does not: its receive is a branch of a `select!` that asks for a close message,
and what does not match only disables the branch.
-/

set_option autoImplicit false

namespace MinimalVm.Agent

open MinimalVm.Semantics MinimalVm.Protocol MinimalVm.Io

def Event.isMalformed : Event → Bool
  | .malformed _ _ => true
  | _ => false

@[simp] theorem isMalformed_ending (task : Task) (result : Ending) : (ending task result).isMalformed = false := by
  cases result <;> rfl

@[simp] theorem isMalformed_send (send : Send) (polled : SendPoll) : ¬ Shows Event.isMalformed (send.events polled) :=
  shows_send (fun _ => rfl) (fun _ _ => rfl) send polled

section
variable {ρ : Type} [MessageReader ρ]

/-- The turn in which the receive of an output task runs into a malformed line. -/
def overlooks (output : Output) (lineBuffered : Bool) (rx : RxLocal ρ) (task : OutputTask) : OutputTurn → Bool
  | .select readFirst answered =>
    match task, (output.pollRecv rx).1 with
    -- If the pipe is polled first and has something, nothing is received.
    | .reading pipe false, .ready (.error (.parse _)) =>
      !readFirst || (pipe.pollRead lineBuffered answered).1.isPending
    | _, _ => false
  | .send _ => false

def Send.lost (this : Send) : SendPoll → Bool
  | .failed takes _ => !this.taken && !takes
  | .pending _ | .sent => false

/-- No output task reads a malformed line, and an error that is to be reported
is at least enqueued. -/
def heeds (s : Agent ρ) : Action → Bool
  | .output output turn =>
    match s.phase with
    | .running tasks => !overlooks output tasks.lineBuffered s.rx (tasks.output output) turn
    | _ => true
  | .fail polled =>
    match s.phase with
    | .failing _ send => !send.lost polled
    | _ => true
  | .receive | .spawn _ | .start _ | .exit _ | .stdin _ | .join | .close | .childExits _ => true

variable {output : Output} {lineBuffered : Bool} {rx : RxLocal ρ}

theorem selectClose_overlooks (pipe : Pipe) {disabled : Bool}
    (reads : (selectClose output pipe disabled rx).events ≠ []) :
    disabled = false ∧ ∃ cause, (output.pollRecv rx).1 = .ready (.error (.parse cause)) := by
  unfold selectClose at reads
  split at reads
  · exact absurd rfl reads
  · rename_i enabled
    refine ⟨Bool.eq_false_iff.mpr enabled, ?_⟩
    split at reads
    · exact absurd rfl reads
    · exact absurd rfl reads
    · exact absurd rfl reads
    · exact absurd rfl reads
    · rename_i error rx' received
      cases error with
      | parse cause => exact ⟨cause, congrArg Prod.fst received⟩
      | read cause => exact absurd rfl reads

theorem selectOutput_overlooks {pipe : Pipe} {disabled readFirst answered : Bool}
    (reads : (selectOutput output lineBuffered pipe disabled rx readFirst answered).events ≠ []) :
    overlooks output lineBuffered rx (.reading pipe disabled) (.select readFirst answered) = true := by
  have closing : (disabled = false ∧ ∃ cause, (output.pollRecv rx).1 = .ready (.error (.parse cause))) ∧
      (readFirst = true → (pipe.pollRead lineBuffered answered).1 = .pending) := by
    unfold selectOutput at reads
    generalize pipe.pollRead lineBuffered answered = polled at reads
    obtain ⟨read, pipe'⟩ := polled
    cases readFirst with
    | true =>
      cases read with
      | ready read => exact absurd rfl reads
      | pending => exact ⟨selectClose_overlooks pipe' reads, fun _ => rfl⟩
    | false =>
      refine ⟨selectClose_overlooks pipe fun none => reads ?_, nofun⟩
      rw [if_neg Bool.false_ne_true]
      dsimp only
      split
      · exact none
      all_goals cases read <;> exact none
  obtain ⟨⟨rfl, cause, received⟩, pending⟩ := closing
  unfold overlooks
  rw [received]
  cases readFirst with
  | true => simp [pending rfl, Poll.isPending]
  | false => rfl

end

theorem ExitMove.overheard {ρ : Type} [MessageReader ρ] {rx : RxLocal ρ} {task task' : ExitTask} {turn : ExitTurn}
    {events : List Event} (move : ExitMove rx task turn events task') (heard : Shows Event.isMalformed events) :
    ∃ error, task' = .ended (.error error) := by
  cases move with
  | recvFailed | waitFailed | sendFailed => exact ⟨_, rfl⟩
  | waits | exits | sends | sent => simp [Event.isMalformed] at heard

theorem StdinMove.overheard {task task' : StdinTask} {events : List Event} (move : StdinMove task events task')
    (heard : Shows Event.isMalformed events) : ∃ error, task' = .ended (.error error) := by
  cases move with
  | recvFailed | writeFailed | sendFailed => exact ⟨_, rfl⟩
  | recvWaits | data | closes | wrote | writeWaits | writes | sends | sent => simp [Event.isMalformed] at heard

theorem handleOutput_overheard {ρ : Type} {output : Output} {selected : Selection ρ}
    (heard : Shows Event.isMalformed (handleOutput output selected).events) : selected.events ≠ [] := by
  intro none
  obtain ⟨branch, pipe, disabled, rx, events⟩ := selected
  cases none
  obtain _ | ⟨error | _ | bytes⟩ | _ := branch
  · simp [handleOutput] at heard
  · simp [handleOutput, endOutput] at heard
  · simp [handleOutput] at heard
  · simp [handleOutput] at heard
  · simp only [handleOutput, List.nil_append] at heard
    split at heard <;> simp [endOutput, ending, Event.isMalformed] at heard

theorem OutputTask.step_overheard {ρ : Type} [MessageReader ρ] {task : OutputTask} {output : Output}
    {lineBuffered : Bool} {rx : RxLocal ρ} {turn : OutputTurn} {turned : Turn OutputTask ρ}
    (moved : task.step output lineBuffered rx turn = some turned) (heard : Shows Event.isMalformed turned.events) :
    overlooks output lineBuffered rx task turn = true := by
  cases OutputTask.step_turned moved with
  | select pipe disabled readFirst answered => exact selectOutput_overlooks (handleOutput_overheard heard)
  | sends pipe send takes => simp at heard
  | sendFailed pipe send takes error => simp [endOutput] at heard
  | sent pipe send => simp at heard
  | finishes send takes => simp at heard
  | finishFailed send takes error => simp [endOutput] at heard
  | finished send => simp [endOutput] at heard

/-! ## Runs that heed every malformed line -/

/-- The agent has failed, or cannot but fail once its tasks are joined. -/
def Doomed : Phase → Prop
  | .receiving | .spawning _ | .starting _ _ _ _ => False
  | .running tasks =>
    (∃ error, tasks.exit = .ended (.error error)) ∨ ∃ error, tasks.stdin = .ended (.error error)
  | .failing _ _ => True
  | .closing status | .done status => ∃ error, status = .error error

/-- An agent that has failed has said so last. -/
def ReportedLast (events : List Event) : Phase → Prop
  | .closing (.error _) | .done (.error _) => ∃ said error, logOf events = said ++ [.error error]
  | _ => True

theorem ExitMove.from_ended {ρ : Type} [MessageReader ρ] {rx : RxLocal ρ} {result : Ending} {turn : ExitTurn}
    {events : List Event} {task : ExitTask} : ¬ ExitMove rx (.ended result) turn events task := nofun

theorem StdinMove.from_ended {result : Ending} {events : List Event} {task : StdinTask} :
    ¬ StdinMove (.ended result) events task := nofun

section
variable {ρ : Type} [MessageReader ρ] {s t : Agent ρ} {action : Action}

theorem AgentMove.doomed (move : AgentMove s action t) (heeded : heeds s action = true)
    (before : Shows Event.isMalformed s.events → Doomed s.phase) : Shows Event.isMalformed t.events → Doomed t.phase := by
  intro heard
  cases move with
  | receives rx phase => exact before heard
  | refuses | disconnected | spawnFailed | startFailed | joinFailed => trivial
  | requested rx exec phase =>
    rw [phase] at before
    exact before (by simpa [Agent.advance] using heard)
  | spawned child phase =>
    rw [phase] at before
    exact before (by simpa [Agent.handleSpawn, Agent.advance, Event.isMalformed] using heard)
  | starts takes phase | started phase =>
    rw [phase] at before
    exact (before (by simpa [Agent.advance] using heard)).elim
  | exit turned phase allowed stepped =>
    rw [phase] at before
    have move := ExitTask.step_move stepped
    -- A task that has failed does not move, so a failure is never taken back.
    rcases (shows_append _ _).mp heard with old | new
    · rcases before old with ⟨error, ended⟩ | stdin
      · exact absurd (ended ▸ move) ExitMove.from_ended
      · exact .inr stdin
    · exact .inl (move.overheard new)
  | stdin turned phase stepped =>
    rw [phase] at before
    have move := StdinTask.step_move stepped
    rcases (shows_append _ _).mp heard with old | new
    · rcases before old with exit | ⟨error, ended⟩
      · exact .inl exit
      · exact absurd (ended ▸ move) StdinMove.from_ended
    · exact .inr (move.overheard new)
  | @output tasks output turn turned phase stepped =>
    rw [phase] at before
    rcases (shows_append _ _).mp heard with old | new
    · simpa [Agent.turned, Agent.advance, Doomed] using before old
    · simp [heeds, phase, OutputTask.step_overheard stepped new] at heeded
  | joined phase joined =>
    rw [phase] at before
    obtain ⟨exit, stdin, -, -⟩ := Tasks.join_ok joined
    rcases before (by simpa [Agent.advance] using heard) with ⟨error, ended⟩ | ⟨error, ended⟩
    · cases exit.symm.trans ended
    · cases stdin.symm.trans ended
  | reports takes phase => trivial
  | reported phase | reportFailed takes cause phase => exact ⟨_, rfl⟩
  | closes phase =>
    rw [phase] at before
    exact before (by simpa [Agent.advance] using heard)
  | childExits status running => exact before (by simpa [Event.isMalformed] using heard)

theorem Converses.reportedLast {events : List Event} {error : AgentError} {send : Send} {polled : SendPoll}
    (said : Converses events (.failing error send)) (taken : (send.poll polled).taken = true) :
    ∃ said error, logOf (events ++ send.events polled) = said ++ [.error error] := by
  obtain ⟨reports, spoken, -, same⟩ := said
  refine ⟨spoken, ⟨error.message⟩, ?_⟩
  rw [logOf_append, logOf_send, same, List.append_assoc, ← Send.poll_enqueued, Send.enqueued, if_pos taken,
    Send.poll_msg, reports]

theorem AgentMove.reportedLast (move : AgentMove s action t) (heeded : heeds s action = true)
    (said : Converses s.events s.phase) (before : ReportedLast s.events s.phase) :
    ReportedLast t.events t.phase := by
  cases move with
  | receives rx phase => exact before
  | refuses | disconnected | requested | spawnFailed | spawned | starts | started | startFailed | exit | stdin
  | output | joined | joinFailed | reports => trivial
  | @reported error send phase =>
    rw [phase] at said
    exact said.reportedLast (Bool.or_true _)
  | @reportFailed error send takes cause phase =>
    rw [phase] at said
    refine said.reportedLast ?_
    simpa [heeds, phase, Send.lost, Send.poll, SendPoll.takes, Bool.or_eq_true] using heeded
  | @closes status phase =>
    rw [phase] at before
    obtain error | _ := status
    · simpa [ReportedLast, Agent.advance] using before
    · trivial
  | @childExits pid status running =>
    have same : logOf (s.events ++ [.childExited pid status]) = logOf s.events :=
      (logOf_append _ _).trans (List.append_nil _)
    simpa only [ReportedLast, same] using before

end

structure Heeded {ρ : Type} (s : Agent ρ) : Prop where
  said : Converses s.events s.phase
  doomed : Shows Event.isMalformed s.events → Doomed s.phase
  reportedLast : ReportedLast s.events s.phase

/-- An agent of which no output task reads a malformed line, and which can send
its last message, ends with an error message if any of its parts has read one. -/
theorem malformed_reported {ρ : Type} [MessageReader ρ] (reader : ρ) (actions : List Action) (s : Agent ρ)
    (run : execute Agent.step (.new reader) actions = some s)
    (met : Throughout Agent.step (fun s action => heeds s action = true) (.new reader) actions) :
    Shows Event.isMalformed s.events → ∀ status, s.phase = .done status → ∃ said error, s.log = said ++ [.error error] := by
  intro heard status ended
  have start : Heeded (Agent.new reader) :=
    ⟨converses_new reader, fun heard => absurd heard shows_nil, trivial⟩
  have holds : Heeded s := invariant_throughout Heeded
    (fun s action t before heeded moved =>
      have move := Agent.step_move moved
      ⟨move.converses before.said, move.doomed heeded before.doomed,
        move.reportedLast heeded before.said before.reportedLast⟩) start met run
  have doomed := holds.doomed heard
  have last := holds.reportedLast
  rw [ended] at doomed last
  obtain ⟨error, rfl⟩ := doomed
  exact last

def torn (msgs : List Message) : Connection :=
  ⟨messageLines msgs ++ [.line (.error ⟨"EOF while parsing an object at line 1 column 1"⟩)]⟩

def heeding : List Action :=
  [.receive, .spawn (.ok ⟨7, [.pending], []⟩), .start .sent, .exit (.select true .pending), .childExits 9,
    .stdin .recv, .stdin (.send .sent), .output .stdout (.select true false),
    .output .stdout (.select true false), .output .stdout (.send .sent), .output .stderr (.select true false),
    .output .stderr (.send .sent), .join, .fail .sent, .close]

theorem malformed_reported_torn :
    ∃ s : Agent Connection, ∃ said error, s.log = said ++ [.error error] := by
  have completes : (execute Agent.step (.new (torn [.exec (request "cat")])) heeding).map
      (fun s => (s.phase.status?.isSome, s.events.any Event.isMalformed)) = some (true, true) := by decide +kernel
  have met : Throughout Agent.step (fun s action => heeds s action = true) (.new (torn [.exec (request "cat")]))
      heeding := by decide +kernel
  obtain ⟨s, run, ended⟩ := Option.map_eq_some_iff.mp completes
  obtain ⟨done, heard⟩ := Prod.mk.inj ended
  obtain ⟨status, same⟩ := Option.isSome_iff_exists.mp done
  exact ⟨s, malformed_reported _ heeding s run met (shows_of_any heard) status (Phase.status?_some same)⟩

/-- The host has closed the input and the child has ended, but its output is
still open when the stdout task reads the line. -/
def overlooking : List Action :=
  [.receive, .spawn (.ok ⟨7, [.pending], []⟩), .start .sent, .childExits 0,
    .exit (.select false (.ready (.ok 0))), .exit (.send .sent), .stdin .recv, .stdin (.send .sent),
    .output .stdout (.select true false), .output .stdout (.select true false), .output .stdout (.send .sent),
    .output .stderr (.select true false), .output .stderr (.send .sent), .join, .close]

theorem malformed_swallowed :
    ∃ s : Agent Connection,
      execute Agent.step (.new (torn [.exec (request "cat"), .stdin .closed])) overlooking = some s ∧
        Shows Event.isMalformed s.events ∧ s.phase = .done (.ok ()) ∧ ∀ error, .error error ∉ s.log := by
  have completes : (execute Agent.step (.new (torn [.exec (request "cat"), .stdin .closed])) overlooking).map
      (fun s => (s.events.any Event.isMalformed, s.phase.succeeded, s.log)) =
      some (true, true, [.started ⟨7⟩, .exited ⟨0⟩, .stdin .closed, .stdout .closed, .stderr .closed]) := by
    decide +kernel
  obtain ⟨s, run, ended⟩ := Option.map_eq_some_iff.mp completes
  obtain ⟨heard, rest⟩ := Prod.mk.inj ended
  obtain ⟨done, said⟩ := Prod.mk.inj rest
  refine ⟨s, run, shows_of_any heard, Phase.done_of_succeeded done, fun error member => ?_⟩
  simp [said] at member

end MinimalVm.Agent
