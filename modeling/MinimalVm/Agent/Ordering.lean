import MinimalVm.Agent.Conversation
import MinimalVm.Agent.Headway
import MinimalVm.Agent.Lines
import MinimalVm.Io.Mailbox
import MinimalVm.Io.RoundTrip
import MinimalVm.Io.Staying
import MinimalVm.Semantics.Inevitable

/-! Which violations of the order of messages the agent reports.

A receive takes the first message of its own type and parks the others, so a
message that is out of place is not an error to anyone. A sequence without any
request fails for want of one, once the host disconnects. Every other sequence
can be served: the agent finds the request wherever it is, and its stdin task
reads to the end.
-/

set_option autoImplicit false

namespace MinimalVm.Agent

open MinimalVm.Semantics MinimalVm.Protocol MinimalVm.Io MinimalVm.Text

abbrev IsExec (msg : Message) : Prop := Accepts Exec msg = true

/-- The ways a sequence of host messages can break the specified order. -/
inductive Violates (hs : List Message) : Prop
  | first {msg : Message} {later : List Message} : hs = msg :: later → ¬ IsExec msg → Violates hs
  | again {msg first : Message} {later : List Message} : hs = first :: later → msg ∈ later → IsExec msg →
      Violates hs
  | stdin {before after : List Message} {bytes : Bytes} : hs = before ++ .stdin .closed :: after →
      .stdin (.data bytes) ∈ after → Violates hs

/-- An error message has been sent, or the agent has ended with an error that it
failed to send. -/
def ErrorReported {ρ : Type} (s : Agent ρ) : Prop :=
  (∃ error, .error error ∈ s.log) ∨ ∃ error, s.phase = .done (.error error) ∧ Unreported s.events

/-- The agent has ended with an error, and sent its message or failed to. -/
def EndsInError {ρ : Type} (s : Agent ρ) : Prop :=
  ∃ error, s.phase = .done (.error error) ∧ (.error ⟨error.message⟩ ∈ s.log ∨ Unreported s.events)

/-- Every run comes to an error message, and without a request in the first
place none of them spawns a child. -/
def Reports {ρ : Type} [MessageReader ρ] (hs : List Message) (reader : ρ) : Prop :=
  Inevitable Agent.step ErrorReported (.new reader) ∧
    ((∀ msg, hs.head? = some msg → ¬ IsExec msg) → ∀ (actions : List Action) (s : Agent ρ),
      execute Agent.step (.new reader) actions = some s → ∀ pid, .spawned pid ∉ s.events)

/-- What is asked of every connection that carries the messages. Only a host that
disconnects ends a last line that it has left open. -/
def AlwaysReported (parse : Bytes → Except ParseError Message) (hs : List Message) (disconnects : Bool) : Prop :=
  ∀ reads : List ReadEvent,
    match disconnects with
    | true => (segments newline (streamOf reads)).map parse = hs.map .ok → Reports hs (.new reads : MsgReader parse)
    | false => (terminated newline (streamOf reads)).map parse = hs.map .ok → Reports hs (.new reads : OpenReader parse)

/-! ## Without a request -/

def NoExec (rx : RxLocal Connection) : Prop :=
  ∀ msg, msg ∈ rx.msgs.queue ∨ .ok msg ∈ rx.reader.items → ¬ IsExec msg

section
variable {parse : Bytes → Except ParseError Message}

/-- The agent has not got past its first receive, and never will. -/
structure Starved (s : Agent (MsgReader parse)) : Prop where
  noExec : NoExec s.rx.toLines
  unborn : s.child = .unborn
  events : ∀ pid, .spawned pid ∉ s.events
  phase : s.phase = .receiving ∨ (∃ error send, s.phase = .failing error send) ∨
    (∃ error, s.phase = .closing (.error error)) ∨ ∃ error, s.phase = .done (.error error)

def Phase.toGo (patience : Nat) : Phase → Nat
  | .receiving => patience + 4
  | .failing _ send => if send.taken then 2 else 3
  | .closing _ => 1
  | .spawning _ | .starting _ _ _ _ | .running _ | .done _ => 0

theorem Phase.toGo_failing (patience : Nat) (error : AgentError) (send : Send) :
    1 < (Phase.failing error send).toGo patience := by
  show 1 < if send.taken then 2 else 3
  split <;> decide

theorem noExec_messages {rx : RxLocal Connection} : NoExec rx ↔ ∀ msg ∈ rx.messages, ¬ IsExec msg := by
  simp only [NoExec, RxLocal.messages, List.mem_append, Connection.mem_messages]

theorem NoExec.received {rx : RxLocal Connection} (noExec : NoExec rx) :
    (∀ exec, (rx.pollRecv Exec).1 ≠ .ready (.ok (some exec))) ∧ NoExec (rx.pollRecv Exec).2 := by
  have takes := rx.pollRecv_takes (M := Exec)
  rw [noExec_messages] at noExec ⊢
  generalize rx.pollRecv Exec = result at takes
  obtain ⟨outcome, rx'⟩ := result
  generalize rx.messages = msgs at noExec takes
  generalize rx'.messages = msgs' at takes
  cases takes with
  | first skipped converted =>
    exact absurd (accepts_of_ok converted) (noExec _ (List.mem_append_right _ List.mem_cons_self))
  | none nothing =>
    refine ⟨fun exec same => ?_, noExec⟩
    cases same
    cases nothing

theorem spawned_malformed {pid : UInt32} {task : Task} {error : RecvError} :
    .spawned pid ∉ malformed task error := by
  cases error <;> simp [malformed]

theorem spawned_send {pid : UInt32} {send : Send} {polled : SendPoll} : .spawned pid ∉ send.events polled := by
  unfold Send.events Send.failures
  cases polled <;> simp

namespace Starved

variable {s t : Agent (MsgReader parse)} {action : Action}

theorem events_append (starved : Starved s) {more : List Event} (quiet : ∀ pid, .spawned pid ∉ more)
    (pid : UInt32) : .spawned pid ∉ s.events ++ more := fun member =>
  (List.mem_append.mp member).elim (starved.events pid) (quiet pid)

theorem receive (starved : Starved s) (phase : s.phase = .receiving) :
    ∃ t, s.step .receive = some t ∧ Starved t ∧ t.phase.toGo (patience t.rx) < s.phase.toGo (patience s.rx) := by
  obtain ⟨rx, _, child, events⟩ := s
  cases phase
  have took := pollRecv_patience (M := Exec) (msgReader_advances parse) rx
  obtain ⟨none, noExec⟩ := starved.noExec.received
  simp only [RxLocal.pollRecv_toLines] at none noExec
  refine ⟨_, rfl, ?_⟩
  generalize rx.pollRecv Exec = received at took none noExec
  obtain ⟨outcome, rx'⟩ := received
  have unborn : child = .unborn := starved.unborn
  obtain _ | error | _ | exec := outcome
  · have fewer := took.resolve_right (by simp)
    refine ⟨⟨noExec, unborn, starved.events, .inl rfl⟩, ?_⟩
    exact Nat.add_lt_add_right fewer 4
  · refine ⟨⟨noExec, unborn, starved.events_append fun _ => spawned_malformed, .inr (.inl ⟨_, _, rfl⟩)⟩, ?_⟩
    exact Nat.lt_of_lt_of_le (by decide : 3 < 4) (Nat.le_add_left 4 _)
  · refine ⟨⟨noExec, unborn, starved.events_append (by simp), .inr (.inl ⟨_, _, rfl⟩)⟩, ?_⟩
    exact Nat.lt_of_lt_of_le (by decide : 3 < 4) (Nat.le_add_left 4 _)
  · exact absurd rfl (none exec)

theorem other (starved : Starved s) (apart : action ≠ .receive) (move : AgentMove s action t) :
    Starved t ∧ (t ≠ s → t.phase.toGo (patience t.rx) < s.phase.toGo (patience s.rx)) := by
  have phases := starved.phase
  cases move with
  | receives | refuses | disconnected | requested => exact absurd rfl apart
  | spawnFailed debug phase => simp [phase] at phases
  | spawned child phase => simp [phase] at phases
  | starts takes phase => simp [phase] at phases
  | started phase => simp [phase] at phases
  | startFailed takes error phase => simp [phase] at phases
  | exit turned phase allowed stepped => simp [phase] at phases
  | stdin turned phase stepped => simp [phase] at phases
  | output turned phase stepped => simp [phase] at phases
  | joined phase all => simp [phase] at phases
  | joinFailed phase some => simp [phase] at phases
  | childExits status alive => exact absurd (starved.unborn.symm.trans alive) (by simp)
  | @reports error send takes phase =>
    refine ⟨⟨starved.noExec, starved.unborn, starved.events_append fun _ => spawned_send, .inr (.inl ⟨_, _, rfl⟩)⟩,
      fun changed => ?_⟩
    obtain ⟨rx, _, child, events⟩ := s
    cases phase
    obtain ⟨msg, flush, taken⟩ := send
    -- A poll that takes nothing on changes nothing.
    cases taken <;> cases takes
    · exact absurd (congrArg (Agent.mk rx _ child) (List.append_nil events)) changed
    · exact Nat.lt_succ_self 2
    · exact absurd (congrArg (Agent.mk rx _ child) (List.append_nil events)) changed
    · exact absurd (congrArg (Agent.mk rx _ child) (List.append_nil events)) changed
  | @reported error send phase =>
    refine ⟨⟨starved.noExec, starved.unborn, starved.events_append fun _ => spawned_send, .inr (.inr (.inl ⟨_, rfl⟩))⟩,
      fun _ => ?_⟩
    rw [phase]
    exact Phase.toGo_failing _ error send
  | @reportFailed error send takes cause phase =>
    refine ⟨⟨starved.noExec, starved.unborn, starved.events_append fun _ => spawned_send, .inr (.inr (.inl ⟨_, rfl⟩))⟩,
      fun _ => ?_⟩
    rw [phase]
    exact Phase.toGo_failing _ error send
  | @closes status phase =>
    obtain ⟨error, rfl⟩ : ∃ error, status = .error error := by simpa [phase] using phases
    refine ⟨⟨starved.noExec, starved.unborn, starved.events_append (by simp), .inr (.inr (.inr ⟨error, rfl⟩))⟩,
      fun _ => ?_⟩
    rw [phase]
    exact Nat.one_pos

theorem step (starved : Starved s) (moved : s.step action = some t) :
    Starved t ∧ (t ≠ s → t.phase.toGo (patience t.rx) < s.phase.toGo (patience s.rx)) := by
  have move := Agent.step_move moved
  by_cases receives : action = .receive
  · subst receives
    have phase : s.phase = .receiving := by cases move <;> assumption
    obtain ⟨u, received, still, less⟩ := starved.receive phase
    cases received.symm.trans moved
    exact ⟨still, fun _ => less⟩
  · exact starved.other receives move

theorem goes (starved : Starved s) (undone : ∀ error, s.phase ≠ .done (.error error)) :
    ∃ action t, s.step action = some t ∧ t ≠ s := by
  have differs {t : Agent (MsgReader parse)} (other : t.phase ≠ s.phase) : t ≠ s := fun same =>
    other (congrArg Agent.phase same)
  rcases starved.phase with phase | ⟨error, send, phase⟩ | ⟨error, phase⟩ | ⟨error, phase⟩
  · obtain ⟨t, moved, -, less⟩ := starved.receive phase
    exact ⟨.receive, t, moved, fun same => absurd (same ▸ less) (Nat.lt_irrefl _)⟩
  · refine ⟨.fail .sent, s.handleFail error send .sent, by simp only [Agent.step, phase], differs ?_⟩
    rw [phase]
    exact Phase.noConfusion
  · refine ⟨.close, s.advance (.done (.error error)) [], by simp only [Agent.step, phase], differs ?_⟩
    rw [phase]
    exact Phase.noConfusion
  · exact absurd phase (undone error)

theorem ends (starved : Starved s) (said : Converses s.events s.phase) :
    Inevitable Agent.step EndsInError s := by
  refine inevitable_of_rank (fun s => Starved s ∧ Converses s.events s.phase)
    (fun s => s.phase.toGo (patience s.rx)) ?_ ?_ ⟨starved, said⟩
  · rintro s ⟨starved, said⟩ open_
    refine starved.goes fun error ended => open_ ⟨error, ended, ?_⟩
    rw [ended] at said
    obtain ⟨spoken, -, whole | ⟨-, unreported⟩⟩ := said
    · exact .inl (by simp [Agent.log, whole])
    · exact .inr unreported
  · rintro s action t ⟨starved, said⟩ moved changed
    obtain ⟨still, less⟩ := starved.step moved
    exact ⟨⟨still, (Agent.step_move moved).converses said⟩, less changed⟩

end Starved

end

/-! ## With a request -/

section
variable {ρ : Type} [MessageReader ρ] {s : Agent ρ} {tasks : Tasks} {disconnects : Bool}

/-- The agent at the same point of its run but for the state of the stdin task. -/
def AtStdin (s : Agent ρ) (tasks : Tasks) (stdin : StdinTask) : Prop :=
  s.phase = .running { tasks with stdin }

theorem step_stdin {stdin : StdinTask} {turn : StdinTurn} {turned : Turn StdinTask ρ}
    (here : AtStdin s tasks stdin) (moves : stdin.step s.rx turn = some turned) :
    s.step (.stdin turn) = some (s.turned (fun stdin => { tasks with stdin }) turned) := by
  have phase : s.phase = .running { tasks with stdin } := here
  simp only [Agent.step, phase, moves, Option.map_some]

def StdinReaches (s : Agent ρ) (tasks : Tasks) (stdin : StdinTask) : Prop :=
  ∃ t, Reaches Agent.step s t ∧ AtStdin t tasks stdin ∧ t.rx = s.rx ∧ t.child = s.child

theorem StdinReaches.step {stdin : StdinTask} (turn : StdinTurn) {turned : Turn StdinTask ρ}
    (here : AtStdin s tasks stdin) (moves : stdin.step s.rx turn = some turned) (same : turned.rx = s.rx) :
    StdinReaches s tasks turned.task :=
  ⟨_, .after (step_stdin here moves) (.refl _ _), rfl, same, rfl⟩

theorem StdinReaches.trans {stdin stdin' : StdinTask} (first : StdinReaches s tasks stdin)
    (rest : ∀ t : Agent ρ, AtStdin t tasks stdin → StdinReaches t tasks stdin') :
    StdinReaches s tasks stdin' := by
  obtain ⟨t, reach, here, rx, child⟩ := first
  obtain ⟨u, reach', here', rx', child'⟩ := rest t here
  exact ⟨u, reach.trans reach', here', rx'.trans rx, child'.trans child⟩

theorem written_whole {bytes : Bytes} (writing : AtStdin s tasks (.writing bytes)) :
    StdinReaches s tasks .receiving := by
  have ends (t : Agent ρ) (here : AtStdin t tasks (.writing [])) : StdinReaches t tasks .receiving :=
    .step (.write .pending) here rfl rfl
  by_cases empty : bytes = []
  · subst empty
    exact ends s writing
  · have whole : writeStdin bytes s.rx (.ready (.ok bytes.length)) =
        ⟨.writing [], s.rx, [.written bytes]⟩ := by
      simp [writeStdin, empty]
    refine .trans ?_ ends
    exact .step (.write (.ready (.ok bytes.length))) writing (congrArg some whole) rfl

theorem stdin_sent {send : Send} (sending : AtStdin s tasks (.sending send)) :
    StdinReaches s tasks (.ended (.ok ())) :=
  .step (.send .sent) sending rfl rfl

/-- What the stdin task comes to: its end, or waiting for a host that has nothing
more to send. -/
def Drains (disconnects : Bool) (s : Agent ρ) (tasks : Tasks) : Prop :=
  ∃ t, Reaches Agent.step s t ∧ t.child = s.child ∧ (AtStdin t tasks (.ended (.ok ())) ∨
    disconnects = false ∧ AtStdin t tasks .receiving ∧ t.rx.pollRecv (Stdin (Option Bytes)) = (.pending, t.rx))

theorem Drains.after {t : Agent ρ} (reaches : Reaches Agent.step s t) (child : t.child = s.child)
    (drains : Drains disconnects t tasks) : Drains disconnects s tasks := by
  obtain ⟨u, further, same, ends⟩ := drains
  exact ⟨u, reaches.trans further, same.trans child, ends⟩

theorem drained {n : Nat} {msgs : List Message} (receiving : AtStdin s tasks .receiving)
    (delivers : Delivers disconnects s.rx.reader msgs) (bound : s.rx.msgs.queue.length + msgs.length < n) :
    Drains disconnects s tasks := by
  induction n generalizing s msgs with
  | zero => exact absurd bound (Nat.not_lt_zero _)
  | succ n ih =>
    have offered := RxLocal.pollRecv_offered (M := Stdin (Option Bytes)) delivers
    generalize polled : s.rx.pollRecv (Stdin (Option Bytes)) = result at offered
    obtain ⟨outcome, rx⟩ := result
    have first : s.step (.stdin .recv) = some (s.turned (fun stdin => { tasks with stdin }) (handleStdin rx outcome)) :=
      step_stdin receiving (by simp only [StdinTask.step, polled])
    have close (t : Agent ρ) (moved : s.step (.stdin .recv) = some t) (child : t.child = s.child)
        (sending : AtStdin t tasks (.sending (.sendAndFlush (.stdin .closed)))) : Drains disconnects s tasks := by
      obtain ⟨u, reaches, ended, -, same⟩ := stdin_sent sending
      exact .after (.after moved (.refl _ _)) child ⟨u, reaches, same, .inl ended⟩
    cases offered with
    | @took m _ left delivers fewer =>
      obtain ⟨_ | bytes⟩ := m
      · exact close _ first rfl rfl
      · have writing : AtStdin (s.turned (fun stdin => { tasks with stdin }) ⟨.writing bytes, rx, []⟩) tasks
            (.writing bytes) := rfl
        obtain ⟨t, reaches, back, same, child⟩ := written_whole writing
        have rx_ : t.rx = rx := same
        refine .after (.after first reaches) child (ih back (rx_ ▸ delivers) ?_)
        rw [List.length_append] at fewer
        rw [rx_]
        omega
    | nothing refused all settled =>
      cases disconnects with
      | true => exact close _ first rfl rfl
      | false => exact ⟨_, .after first (.refl _ _), rfl, .inr ⟨rfl, rfl, settled⟩⟩

def silent : SpawnedChild := ⟨1, [], []⟩

def silentTasks (lineBuffered : Bool) : Tasks :=
  ⟨lineBuffered, .ended (.ok ()), .receiving, .ended (.ok ()), .ended (.ok ())⟩

theorem silent_reported (rx : RxLocal ρ) (exec : Exec) :
    ∃ t, Reaches Agent.step ⟨rx, .spawning exec, .unborn, []⟩ t ∧ t.rx = rx ∧ t.child = .exited silent.pid 0 ∧
      AtStdin t (silentTasks (exec.lineBufferedIo.getD true)) .receiving := by
  let actions : List Action := [.spawn (.ok silent), .start .sent, .childExits 0,
    .exit (.select false (.ready (.ok 0))), .exit (.send .sent), .output .stdout (.select true false),
    .output .stdout (.send .sent), .output .stderr (.select true false), .output .stderr (.send .sent)]
  obtain ⟨prog, args, pwd, user, lineBuffered⟩ := exec
  obtain _ | _ | _ := lineBuffered <;> exact ⟨_, ⟨actions, rfl⟩, rfl, rfl, rfl⟩

/-! ### Where nothing changes any more -/

theorem stuck_receiving {rx : RxLocal ρ} {events : List Event} (settled : rx.pollRecv Exec = (.pending, rx)) :
    Stuck Agent.step ⟨rx, .receiving, .unborn, events⟩ := by
  intro action t moved
  cases action with
  | receive =>
    simp only [Agent.step, settled] at moved
    exact (Option.some.inj moved).symm
  | spawn | start | exit | stdin | output | join | fail | close | childExits => cases moved

theorem stuck_stdin {rx : RxLocal ρ} {lineBuffered : Bool} {pid : UInt32} {status : Int32} {events : List Event}
    (settled : rx.pollRecv (Stdin (Option Bytes)) = (.pending, rx)) :
    Stuck Agent.step ⟨rx, .running (silentTasks lineBuffered), .exited pid status, events⟩ := by
  intro action t moved
  cases action with
  | stdin turn =>
    cases turn with
    | recv =>
      simp only [Agent.step, silentTasks, StdinTask.step, settled, handleStdin, Option.map_some, Agent.turned,
        Agent.advance, List.append_nil] at moved
      exact (Option.some.inj moved).symm
    | write answer | send polled => cases moved
  | exit turn =>
    simp only [Agent.step] at moved
    split at moved
    · cases turn <;> cases moved
    · cases moved
  | output output turn => cases output <;> cases turn <;> cases moved
  | receive | spawn | start | join | fail | close | childExits => cases moved

theorem stuck_done {rx : RxLocal ρ} {ending : Ending} {pid : UInt32} {status : Int32} {events : List Event} :
    Stuck Agent.step ⟨rx, .done ending, .exited pid status, events⟩ := by
  intro action t moved
  cases action <;> cases moved

/-- Some run has nothing left to do and no error to show for it, unless there is
no request and the host disconnects. -/
theorem unanswered {reader : ρ} {hs : List Message} (delivers : Delivers disconnects reader hs)
    (served : (∃ msg ∈ hs, IsExec msg) ∨ disconnects = false) :
    ∃ t, Reaches Agent.step (.new reader) t ∧ Stuck Agent.step t ∧ Spoken t.log ∧
      ∀ error, t.phase ≠ .done (.error error) := by
  have offered := RxLocal.pollRecv_offered (M := Exec) (show Delivers disconnects (RxLocal.new reader).reader hs from delivers)
  have first : Agent.step (.new reader) .receive = some ({ Agent.new reader with
      rx := ((RxLocal.new reader).pollRecv Exec).2 }.handleExec ((RxLocal.new reader).pollRecv Exec).1) := rfl
  generalize RxLocal.pollRecv Exec (.new reader) = result at offered first
  cases offered with
  | @nothing rx refused all settled =>
    cases disconnects with
    | true =>
      obtain ⟨msg, member, isExec⟩ := served.resolve_right (by simp)
      exact absurd isExec (by simp [refused msg member])
    | false => exact ⟨_, .after first (.refl _ _), stuck_receiving settled, .inl rfl, fun _ => Phase.noConfusion⟩
  | @took exec rx left delivers fewer =>
    obtain ⟨started, reaches, rfl, exited, receiving⟩ := silent_reported rx exec
    obtain ⟨t, reaches', child, ends⟩ := drained receiving delivers (Nat.lt_succ_self _)
    have reached : Reaches Agent.step (.new reader) t := .after first (reaches.trans reaches')
    obtain ⟨rx', phase, _, events⟩ := t
    cases child.trans exited
    rcases ends with ended | ⟨-, waits, settled⟩
    · cases (show phase = _ from ended)
      have done : Reaches Agent.step (.new reader) (⟨rx', .done (.ok ()), .exited silent.pid 0, events ++ [] ++ []⟩ : Agent ρ) :=
        reached.trans ⟨[.join, .close], rfl⟩
      obtain ⟨actions, run⟩ := done
      obtain ⟨started, body, whole, said⟩ := converses_run run
      refine ⟨_, ⟨actions, run⟩, stuck_done, ?_, by simp⟩
      rw [Agent.log, whole]
      exact .whole said
    · cases (show phase = _ from waits)
      obtain ⟨actions, run⟩ := reached
      obtain ⟨started, body, whole, said⟩ := converses_run run
      exact ⟨_, ⟨actions, run⟩, stuck_stdin settled, .inr ⟨started, body, whole, said.shapes⟩, by simp⟩

end

/-! ## The violations reported -/

section
variable {parse : Bytes → Except ParseError Message} {hs : List Message}

theorem starved_new {reads : List ReadEvent} (carries : (segments newline (streamOf reads)).map parse = hs.map .ok)
    (none : ∀ msg ∈ hs, ¬ IsExec msg) : Starved (.new (.new reads : MsgReader parse)) := by
  refine ⟨?_, rfl, fun _ => List.not_mem_nil, .inl rfl⟩
  rintro msg (waits | unread)
  · cases waits
  · have items := (MsgReader.new reads : MsgReader parse).items_toConnection
    have lines : (MsgReader.new reads : MsgReader parse).toConnection.items = hs.map .ok :=
      items.trans ((congrArg (fun bytes => (segments newline bytes).map parse) (List.nil_append _)).trans carries)
    obtain ⟨other, member, same⟩ := List.mem_map.mp (lines ▸ unread)
    exact Except.ok.inj same ▸ none other member

theorem EndsInError.reported {ρ : Type} {s : Agent ρ} (ends : EndsInError s) : ErrorReported s := by
  obtain ⟨error, ended, sent | unsent⟩ := ends
  · exact .inl ⟨_, sent⟩
  · exact .inr ⟨error, ended, unsent⟩

theorem reported_without {reads : List ReadEvent}
    (carries : (segments newline (streamOf reads)).map parse = hs.map .ok) (none : ∀ msg ∈ hs, ¬ IsExec msg) :
    Inevitable Agent.step EndsInError (.new (.new reads : MsgReader parse)) ∧
      Reports hs (.new reads : MsgReader parse) := by
  have starved := starved_new carries none
  have ends := starved.ends (converses_new _)
  refine ⟨ends, ends.imp fun _ => EndsInError.reported, fun _ actions s run => ?_⟩
  exact (invariant_execute Starved (fun _ _ _ before moved => (before.step moved).1) starved run).events

theorem ErrorReported.step {ρ : Type} [MessageReader ρ] {s t : Agent ρ} {action : Action} (reported : ErrorReported s)
    (moved : s.step action = some t) : ErrorReported t := by
  have move := Agent.step_move moved
  obtain ⟨more, grown⟩ := move.grows
  rcases reported with ⟨error, said⟩ | ⟨error, ended, report, cause, unsent⟩
  · refine .inl ⟨error, ?_⟩
    rw [Agent.log, grown, logOf_append]
    exact List.mem_append_left _ said
  · refine .inr ⟨error, ?_, report, cause, grown ▸ List.mem_append_left _ unsent⟩
    cases move with
    | childExits status alive => exact ended
    | _ => simp_all

theorem not_reports {ρ : Type} [MessageReader ρ] {reader : ρ} {disconnects : Bool}
    (delivers : Delivers disconnects reader hs) (served : (∃ msg ∈ hs, IsExec msg) ∨ disconnects = false) :
    ¬ Reports hs reader := by
  rintro ⟨inevitable, -⟩
  obtain ⟨t, reaches, stuck, spoken, goes⟩ := unanswered delivers served
  rcases inevitable.of_stuck (fun _ _ _ reported moved => reported.step moved) reaches stuck with
    ⟨error, said⟩ | ⟨error, ended, -⟩
  · exact spoken.no_error error said
  · exact goes error ended

theorem segments_texts (hs : List Message) :
    segments newline (framesOf (hs.map Message.text)) = hs.map Message.text ∧
      terminated newline (framesOf (hs.map Message.text)) = hs.map Message.text := by
  induction hs with
  | nil => exact ⟨rfl, rfl⟩
  | cons msg hs ih =>
    obtain ⟨free, nonempty⟩ := compact_line msg.text_compact
    have frames : framesOf ((msg :: hs).map Message.text) = msg.text ++ newline :: framesOf (hs.map Message.text) := by
      simp [framesOf, frame]
    rw [frames, segments_line free, terminated_line free, if_neg nonempty, ih.1, ih.2]
    exact ⟨rfl, rfl⟩

def textReader (hs : List Message) (nonempty : hs ≠ []) : List ReadEvent :=
  [.data ⟨framesOf (hs.map Message.text), fun empty => by
    obtain ⟨msg, later, rfl⟩ := List.exists_cons_of_ne_nil nonempty
    exact frame_nonempty msg.text (List.append_eq_nil_iff.mp empty).1⟩]

theorem textReader_carries (nonempty : hs ≠ []) (inverse : ∀ msg ∈ hs, parse msg.text = .ok msg) :
    (segments newline (streamOf (textReader hs nonempty))).map parse = hs.map .ok ∧
      (terminated newline (streamOf (textReader hs nonempty))).map parse = hs.map .ok := by
  obtain ⟨whole, ended⟩ := segments_texts hs
  have parsed : (hs.map Message.text).map parse = hs.map .ok := by
    rw [List.map_map]
    exact List.map_congr_left inverse
  rw [show streamOf (textReader hs nonempty) = _ from List.append_nil _, whole, ended]
  exact ⟨parsed, parsed⟩

theorem delivers_texts (inverse : ∀ msg ∈ hs, parse msg.text = .ok msg) :
    Delivers true (⟨[], framesOf (hs.map Message.text)⟩ : MsgReader parse) hs ∧
      Delivers false (⟨⟨[], framesOf (hs.map Message.text)⟩⟩ : OpenReader parse) hs := by
  induction hs with
  | nil =>
    exact ⟨.all MsgReader.pollReadMessage_end, .all OpenReader.pollReadMessage_end⟩
  | cons msg hs ih =>
    obtain ⟨free, nonempty⟩ := compact_line msg.text_compact
    have frames : framesOf ((msg :: hs).map Message.text) = msg.text ++ newline :: framesOf (hs.map Message.text) := by
      simp [framesOf, frame]
    obtain ⟨closed, stays⟩ := ih fun other member => inverse other (List.mem_cons_of_mem msg member)
    rw [frames]
    have parsed := inverse msg List.mem_cons_self
    refine ⟨.message ((MsgReader.pollReadMessage_line free nonempty _).trans ?_) closed,
      .message ((OpenReader.pollReadMessage_line free nonempty _).trans ?_) stays⟩
    · rw [parsed]
      rfl
    · rw [parsed]
      rfl

theorem textReader_delivers (nonempty : hs ≠ []) (inverse : ∀ msg ∈ hs, parse msg.text = .ok msg) :
    Delivers true (.new (textReader hs nonempty) : MsgReader parse) hs ∧
      Delivers false (.new (textReader hs nonempty) : OpenReader parse) hs := by
  obtain ⟨closed, stays⟩ := delivers_texts inverse
  exact ⟨closed.of_polls (MsgReader.pollReadMessage_data _ []) nonempty,
    stays.of_polls (OpenReader.pollReadMessage_data _) nonempty⟩

end

/-- Just the sequences that hold no request at all are always reported, and only
once the host disconnects. The agent then gets to its end. -/
theorem violations_reported (parse : Bytes → Except ParseError Message) (hs : List Message) (disconnects : Bool)
    (inverse : ∀ msg ∈ hs, parse msg.text = .ok msg) :
    (AlwaysReported parse hs disconnects ↔ (∀ msg ∈ hs, ¬ IsExec msg) ∧ disconnects = true) ∧
      ((∀ msg ∈ hs, ¬ IsExec msg) → ∀ reads : List ReadEvent,
        (segments newline (streamOf reads)).map parse = hs.map .ok →
        Inevitable Agent.step EndsInError (.new (.new reads : MsgReader parse))) := by
  refine ⟨⟨fun always => ?_, ?_⟩, fun none reads carries => (reported_without carries none).1⟩
  · by_cases nonempty : hs = []
    · subst nonempty
      refine ⟨by simp, ?_⟩
      cases disconnects with
      | true => rfl
      | false =>
        exact absurd (always [] rfl) (not_reports (.all OpenReader.pollReadMessage_end) (.inr rfl))
    · obtain ⟨closed, stays⟩ := textReader_delivers nonempty inverse
      obtain ⟨carries, whole⟩ := textReader_carries nonempty inverse
      cases disconnects with
      | true =>
        refine ⟨fun msg member isExec => ?_, rfl⟩
        exact not_reports closed (.inl ⟨msg, member, isExec⟩) (always _ carries)
      | false => exact absurd (always _ whole) (not_reports stays (.inr rfl))
  · rintro ⟨none, rfl⟩ reads carries
    exact (reported_without carries none).2

theorem violations_reported_kill :
    let parse := parseWith (knownText [.kill ⟨9⟩])
    AlwaysReported parse [.kill ⟨9⟩] true ∧ ∃ s : Agent (MsgReader parse),
      execute Agent.step (.new (.new (textReader [.kill ⟨9⟩] nofun))) [.receive, .fail .sent, .close] = some s ∧
        (∃ error, s.phase = .done (.error error)) ∧ s.log = [.error ⟨"Connection closed"⟩] := by
  intro parse
  have inverse : ∀ msg ∈ [Message.kill ⟨9⟩], parse msg.text = .ok msg := by
    intro msg member
    cases List.mem_singleton.mp member
    exact parseWith_text (knownText_text (by decide +kernel))
  refine ⟨(violations_reported parse _ true inverse).1.mpr ⟨fun msg member => ?_, rfl⟩, ?_⟩
  · cases List.mem_singleton.mp member
    decide
  · have completes : ((execute Agent.step (.new (.new (textReader [.kill ⟨9⟩] nofun) : MsgReader parse))
        [.receive, .fail .sent, .close]).map fun s => (s.phase.status?.map Except.toOption, s.log)) =
        some (some none, [.error ⟨"Connection closed"⟩]) := by decide +kernel
    obtain ⟨s, run, ended⟩ := Option.map_eq_some_iff.mp completes
    obtain ⟨done, said⟩ := Prod.mk.inj ended
    obtain ⟨error | _, status, failed⟩ := Option.map_eq_some_iff.mp done
    · exact ⟨s, run, ⟨error, Phase.status?_some status⟩, said⟩
    · cases failed

def Event.spawned? : Event → Option UInt32
  | .spawned pid => some pid
  | _ => none

def misplaced : List Message := [.kill ⟨9⟩, .exec (request "sleep")]

def misplacedRun : List Action :=
  [.receive, .spawn (.ok ⟨7, [], []⟩), .start .sent, .exit (.select false .pending), .stdin .recv,
    .stdin (.send .sent), .childExits 9, .exit (.select false (.ready (.ok 9))), .exit (.send .sent),
    .output .stdout (.select true false), .output .stdout (.send .sent), .output .stderr (.select true false),
    .output .stderr (.send .sent), .join, .close]

theorem misplaced_unreported :
    Violates misplaced ∧ ∃ s : Agent (MsgReader (parseWith (knownText misplaced))),
      execute Agent.step (.new (.new (textReader misplaced nofun))) misplacedRun = some s ∧ s.phase = .done (.ok ()) ∧
      (∀ error, .error error ∉ s.log) ∧ .spawned 7 ∈ s.events := by
  have completes : ((execute Agent.step
      (.new (.new (textReader misplaced nofun) : MsgReader (parseWith (knownText misplaced))))
      misplacedRun).map fun s => (s.phase.succeeded, s.log, s.events.filterMap Event.spawned?)) =
      some (true, [.started ⟨7⟩, .stdin .closed, .exited ⟨9⟩, .stdout .closed, .stderr .closed], [7]) := by
    decide +kernel
  obtain ⟨s, run, ended⟩ := Option.map_eq_some_iff.mp completes
  obtain ⟨done, rest⟩ := Prod.mk.inj ended
  obtain ⟨said, spawned⟩ := Prod.mk.inj rest
  refine ⟨.first rfl (by decide), s, run, Phase.done_of_succeeded done, fun error member => ?_, ?_⟩
  · simp [said] at member
  · obtain ⟨event, member, same⟩ := List.mem_filterMap.mp (spawned ▸ List.mem_singleton_self 7)
    cases event with
    | spawned pid =>
      cases same
      exact member
    | _ => cases same

end MinimalVm.Agent
