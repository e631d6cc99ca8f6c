import MinimalVm.Agent.Lines
import MinimalVm.Agent.Mail
import MinimalVm.Io.LineParser
import MinimalVm.Semantics.Counting

/-! How often the exit task goes round its loop.

Every round of the loop ends with a kill, with the end of the child or with the
end of the connection. Kills are limited by what the host sends and the child
ends once, but the end of the connection can be received for ever.
-/

set_option autoImplicit false

namespace MinimalVm.Agent

open MinimalVm.Semantics MinimalVm.Protocol MinimalVm.Io MinimalVm.Text

/-- A selection after which the loop goes round: the receive completes in it,
and not with an error. -/
def goesRound {ρ : Type} [MessageReader ρ] (process : Process) (rx : RxLocal ρ) (killFirst : Bool)
    (answer : Poll (Except IoError Int32)) : Bool :=
  pollsKill process killFirst answer &&
    match (rx.pollRecv Kill).1 with
    | .ready (.ok _) => true
    | .ready (.error _) | .pending => false

/-- A turn that completes an iteration of the loop of the exit task. -/
def ExitTask.completes {ρ : Type} [MessageReader ρ] (this : ExitTask) (rx : RxLocal ρ) : ExitTurn → Bool
  | .select killFirst answer =>
    match this with
    | .waiting process => goesRound process rx killFirst answer
    | .sending _ _ | .ended _ => false
  -- The child has ended, and the last thing to do is to say so.
  | .send .sent =>
    match this with
    | .sending _ _ => true
    | .waiting _ | .ended _ => false
  | .send (.pending _) | .send (.failed _ _) => false

def completesRound {ρ : Type} [MessageReader ρ] (s : Agent ρ) (action : Action) : Bool :=
  match s.phase, action with
  | .running tasks, .exit turn => tasks.exit.completes s.rx turn
  | _, _ => false

/-- A selection that receives although the connection has ended and no kill is
left in it. -/
def ExitTask.spins (this : ExitTask) (rx : RxLocal Connection) : ExitTurn → Bool
  | .select killFirst answer =>
    match this with
    | .waiting process => pollsKill process killFirst answer && rx.exhausted Kill
    | .sending _ _ | .ended _ => false
  | .send _ => false

def spins (s : Agent Connection) (action : Action) : Bool :=
  match s.phase, action with
  | .running tasks, .exit turn => tasks.exit.spins s.rx turn
  | _, _ => false

/-- The iterations of the loop that are completed in a run. -/
def exitRounds {ρ : Type} [MessageReader ρ] (s : Agent ρ) (actions : List Action) : Nat :=
  countSteps Agent.step completesRound s actions

def killsLeft (s : Agent Connection) : Nat := (s.mail .exit).length

/-- How often the exit task has come to its end without an error. -/
def exitsEnded (events : List Event) : Nat := events.count (.finished .exit)

/-! ## The end of the exit task -/

@[simp] theorem exitsEnded_append (first rest : List Event) :
    exitsEnded (first ++ rest) = exitsEnded first + exitsEnded rest := List.count_append

theorem exitsEnded_others {events : List Event} (others : ¬ Shows (Event.isOf .exit) events) :
    exitsEnded events = 0 :=
  List.count_eq_zero.mpr fun member => others ⟨_, member, rfl⟩

@[simp] theorem exitsEnded_send (send : Send) (polled : SendPoll) : exitsEnded (send.events polled) = 0 :=
  exitsEnded_others (isOf_send send polled)

@[simp] theorem exitsEnded_signalled (signals : List Signal) : exitsEnded (signals.map .signalled) = 0 :=
  exitsEnded_others (by simp [Event.isOf, Event.task?])

@[simp] theorem exitsEnded_malformed (task : Task) (error : RecvError) : exitsEnded (malformed task error) = 0 := by
  cases error <;> rfl

@[simp] theorem exitsEnded_failed (task : Task) (error : AgentError) (rest : List Event) :
    exitsEnded (.failed task error :: rest) = exitsEnded rest :=
  List.count_cons_of_ne (fun same => Event.noConfusion same)

@[simp] theorem exitsEnded_finished (rest : List Event) :
    exitsEnded (.finished .exit :: rest) = exitsEnded rest + 1 := List.count_cons_self

/-- A task that has ended has ended once. -/
def ExitTask.Ends (n : Nat) : ExitTask → Prop
  | .waiting _ | .sending _ _ => n = 0
  | .ended _ => n ≤ 1

def Phase.Ends (n : Nat) : Phase → Prop
  | .receiving | .spawning _ | .starting _ _ _ _ => n = 0
  | .running tasks => tasks.exit.Ends n
  | .failing _ _ | .closing _ | .done _ => n ≤ 1

theorem ExitTask.Ends.le {task : ExitTask} {n : Nat} (ends : task.Ends n) : n ≤ 1 := by
  cases task with
  | waiting process => exact (show n = 0 from ends) ▸ Nat.zero_le 1
  | sending process send => exact (show n = 0 from ends) ▸ Nat.zero_le 1
  | ended result => exact ends

theorem Phase.Ends.le {phase : Phase} {n : Nat} (ends : phase.Ends n) : n ≤ 1 := by
  cases phase with
  | receiving | spawning | starting => exact (show n = 0 from ends) ▸ Nat.zero_le 1
  | running tasks => exact ExitTask.Ends.le ends
  | failing | closing | done => exact ends

theorem ExitMove.ends {ρ : Type} [MessageReader ρ] {rx : RxLocal ρ} {task task' : ExitTask} {turn : ExitTurn}
    {events : List Event} {n : Nat} (move : ExitMove rx task turn events task') (before : task.Ends n) :
    task'.Ends (n + exitsEnded events) := by
  cases move with
  | waits signals kept =>
    rw [exitsEnded_signalled]
    exact before
  | exits process' status answered => exact before
  | sends takes =>
    rw [exitsEnded_send]
    exact before
  | recvFailed error kept =>
    have none : n = 0 := before
    simp [ExitTask.Ends, none]
  | waitFailed error signals polls answered =>
    have none : n = 0 := before
    simp [ExitTask.Ends, none]
  | sent signals =>
    have none : n = 0 := before
    simp [ExitTask.Ends, none]
  | sendFailed takes error signals =>
    have none : n = 0 := before
    simp [ExitTask.Ends, none]

section
variable {ρ : Type} [MessageReader ρ] {s t : Agent ρ} {action : Action} {n : Nat}

theorem AgentMove.ends_beside (move : AgentMove s action t) (other : action.task ≠ .exit)
    (before : s.phase.Ends n) : t.phase.Ends n := by
  have atMost : n ≤ 1 := before.le
  cases move with
  | receives rx phase => exact before
  | childExits status alive => exact before
  | requested rx exec phase =>
    rw [phase] at before
    exact before
  | spawned child phase =>
    rw [phase] at before
    exact before
  | starts takes phase =>
    rw [phase] at before
    exact before
  | started phase =>
    rw [phase] at before
    exact before
  | exit turned phase allowed stepped => exact absurd rfl other
  | stdin turned phase stepped =>
    rw [phase] at before
    exact before
  | @output tasks output turn turned phase stepped =>
    rw [phase] at before
    show (tasks.setOutput turned.task output).exit.Ends n
    rw [Tasks.setOutput_exit]
    exact before
  | refuses | disconnected | spawnFailed | startFailed => exact atMost
  | joined | joinFailed | reports | reported | reportFailed | closes => exact atMost

def Rounded (s : Agent ρ) : Prop := Converses s.events s.phase ∧ s.phase.Ends (exitsEnded s.events)

theorem Rounded.step (before : Rounded s) (moved : s.step action = some t) : Rounded t := by
  have move := Agent.step_move moved
  obtain ⟨said, ends⟩ := before
  refine ⟨move.converses said, ?_⟩
  obtain ⟨more, grown, doneBy⟩ := move.doneBy said
  by_cases own : action.task = .exit
  · cases move with
    | @exit tasks turn turned phase allowed stepped =>
      rw [phase] at ends
      show ExitTask.Ends (exitsEnded (s.events ++ turned.events)) turned.task
      rw [exitsEnded_append]
      exact (ExitTask.step_move stepped).ends ends
    | _ => cases own
  · rw [grown, exitsEnded_append, exitsEnded_others (doneBy.about .exit own), Nat.add_zero]
    exact move.ends_beside own ends

end

/-! ## The books of the kills -/

theorem selectExit_balance (process : Process) (rx : RxLocal Connection) (killFirst : Bool)
    (answer : Poll (Except IoError Int32)) :
    (goesRound process rx killFirst answer).toNat +
        (mail Kill (selectExit process rx killFirst answer).rx.messages).length =
      (pollsKill process killFirst answer && rx.exhausted Kill).toNat + (mail Kill rx.messages).length := by
  rw [selectExit_rx, goesRound]
  cases pollsKill process killFirst answer with
  | false => rfl
  | true =>
    have taken := rx.pollRecv_mail (M := Kill)
    have ended := rx.pollRecv_eof (M := Kill)
    rw [if_pos rfl, taken, Bool.true_and, Bool.true_and]
    generalize rx.pollRecv Kill = result at ended
    obtain ⟨outcome, rx'⟩ := result
    have more : outcome ≠ .ready (.ok none) → rx.exhausted Kill = false := fun apart =>
      Bool.eq_false_iff.mpr fun exhausted => apart (ended.mpr exhausted)
    obtain _ | error | _ | kill := outcome
    · rw [more nofun]
      rfl
    · rw [more nofun]
      rfl
    · rw [ended.mp rfl]
      rfl
    · rw [more nofun]
      show 1 + (mail Kill rx'.messages).length = 0 + ((mail Kill rx'.messages).length + 1)
      omega

theorem ExitMove.select_quiet {ρ : Type} [MessageReader ρ] {rx : RxLocal ρ} {task task' : ExitTask}
    {killFirst : Bool} {answer : Poll (Except IoError Int32)} {events : List Event}
    (move : ExitMove rx task (.select killFirst answer) events task') : exitsEnded events = 0 := by
  cases move with
  | waits | recvFailed | waitFailed => simp
  | exits => rfl

theorem ExitMove.send_ends {ρ : Type} [MessageReader ρ] {rx : RxLocal ρ} {task task' : ExitTask}
    {polled : SendPoll} {events : List Event} (move : ExitMove rx task (.send polled) events task') :
    exitsEnded events = (task.completes rx (.send polled)).toNat := by
  cases move with
  | sends takes => exact exitsEnded_send _ _
  | sent signals => simp [ExitTask.completes]
  | sendFailed takes error signals => simp [ExitTask.completes]

theorem ExitTask.step_balance {task : ExitTask} {rx : RxLocal Connection} {turn : ExitTurn}
    {turned : Turn ExitTask Connection} (moved : task.step rx turn = some turned) :
    (task.completes rx turn).toNat + (mail Kill turned.rx.messages).length =
      (task.spins rx turn).toNat + (mail Kill rx.messages).length + exitsEnded turned.events := by
  have move := ExitTask.step_move moved
  cases ExitTask.step_turned moved with
  | select process killFirst answer =>
    rw [move.select_quiet]
    exact selectExit_balance process rx killFirst answer
  | sends | sendFailed | sent =>
    rw [move.send_ends, spins]
    simp only [endExit, Bool.toNat_false]
    omega

/-! ## Every run -/

theorem Rounded.balance {s t : Agent Connection} {action : Action} (before : Rounded s)
    (moved : s.step action = some t) :
    (completesRound s action).toNat + killsLeft t + exitsEnded s.events =
      (spins s action).toNat + killsLeft s + exitsEnded t.events := by
  have move := Agent.step_move moved
  obtain ⟨more, grown, doneBy⟩ := move.doneBy before.1
  by_cases own : action.task = .exit
  · cases move with
    | @exit tasks turn turned phase allowed stepped =>
      have balance := ExitTask.step_balance stepped
      have ended : exitsEnded (s.turned (fun exit => { tasks with exit }) turned).events =
          exitsEnded s.events + exitsEnded turned.events := exitsEnded_append _ _
      rw [ended]
      simp only [completesRound, spins, phase]
      unfold killsLeft Agent.mail
      show _ + (mail Kill turned.rx.messages).length + _ = _ + (mail Kill s.rx.messages).length + _
      omega
    | _ => cases own
  · have mails : killsLeft t = killsLeft s := congrArg List.length (Agent.step_mail moved own)
    have none : completesRound s action = false ∧ spins s action = false := by
      cases action with
      | exit turn => exact absurd rfl own
      | _ => simp [completesRound, spins]
    rw [grown, exitsEnded_append, exitsEnded_others (doneBy.about .exit own), mails, none.1, none.2]
    rfl

theorem completesRound_toLines {parse : Bytes → Except ParseError Message} (s : Agent (MsgReader parse))
    (action : Action) : completesRound s.toLines action = completesRound s action := by
  obtain ⟨rx, phase, child, events⟩ := s
  cases action with
  | exit turn =>
    cases phase with
    | running tasks =>
      simp only [completesRound, Agent.toLines]
      cases turn with
      | select killFirst answer => simp only [ExitTask.completes, goesRound, RxLocal.pollRecv_toLines]
      | send polled => cases polled <;> rfl
    | _ => rfl
  | _ => cases phase <;> rfl

/-- The exit task ends at most once, and completes no more iterations than it
has received kills and come to its end, just as long as it never asks for more
of a connection that has ended. -/
theorem exit_rounds (parse : Bytes → Except ParseError Message) (reader : List ReadEvent) (actions : List Action)
    (s : Agent (MsgReader parse)) (run : execute Agent.step (.new (.new reader)) actions = some s) :
    let start : Agent (MsgReader parse) := .new (.new reader)
    let kills := mail Kill (wellFormed ((segments newline (streamOf reader)).map parse))
    exitsEnded s.events ≤ 1 ∧
      (exitRounds start actions + killsLeft s.toLines ≤ kills.length + exitsEnded s.events ↔
        Throughout Agent.step (fun s action => spins s.toLines action = false) start actions) := by
  intro start kills
  have overLines : execute Agent.step start.toLines actions = some s.toLines := by
    rw [Agent.execute_toLines, run]
    rfl
  have begins : Rounded start.toLines := ⟨converses_new _, rfl⟩
  have rounded : Rounded s.toLines :=
    invariant_execute Rounded (fun _ _ _ before moved => before.step moved) begins overLines
  -- Iterations and kills keep the same books, up to the selections that spin.
  have balance := countSteps_balance killsLeft (fun s : Agent Connection => exitsEnded s.events)
    (fun _ _ _ before moved => before.step moved) (fun _ _ _ before moved => before.balance moved) begins overLines
  have rounds : countSteps Agent.step completesRound start.toLines actions = exitRounds start actions :=
    countSteps_map Agent.step_toLines completesRound_toLines start actions
  have turns : countSteps Agent.step spins start.toLines actions =
      countSteps Agent.step (fun s action => spins s.toLines action) start actions :=
    countSteps_map Agent.step_toLines (fun _ _ => rfl) start actions
  have sent : killsLeft start.toLines = kills.length := by
    show (mail Kill (RxLocal.new (.new reader : MsgReader parse)).toLines.messages).length = _
    rw [RxLocal.messages_new]
  have same : exitsEnded s.toLines.events = exitsEnded s.events := rfl
  have none : exitsEnded start.toLines.events = 0 := rfl
  refine ⟨rounded.2.le, ?_⟩
  rw [rounds, turns, sent] at balance
  simp only [same, none] at balance
  have avoided : countSteps Agent.step (fun s action => spins s.toLines action) start actions = 0 ↔
      Throughout Agent.step (fun s action => spins s.toLines action = false) start actions :=
    countSteps_eq_zero run
  rw [← avoided]
  omega

/-! ## The end of the connection -/

theorem pollRecv_ended {rx : RxLocal Connection} (ended : rx.reader.events = [])
    (empty : mail Kill rx.messages = []) : rx.pollRecv Kill = (.ready (.ok none), rx) := by
  have received := rx.pollRecv_received (M := Kill)
  have mails := rx.pollRecv_mail (M := Kill)
  rw [empty] at mails
  generalize rx.pollRecv Kill = result at received mails
  cases received with
  | queued skipped converted => cases mails
  | @read queue passed last rest outcome skipped beyond terminated =>
    obtain ⟨nothing, spent⟩ := List.append_eq_nil_iff.mp ended
    cases spent
    obtain rfl := List.map_eq_nil_iff.mp nothing
    cases terminated
    rw [List.append_nil]
    rfl

/-- At the end of the connection the exit task can go round for nothing. -/
theorem round_stays {s : Agent Connection} {tasks : Tasks} {process : Process} (phase : s.phase = .running tasks)
    (waiting : tasks.exit = .waiting process) (unlocked : process.locked = false) (ended : s.rx.reader.events = [])
    (empty : mail Kill s.rx.messages = []) :
    s.step (.exit (.select true .pending)) = some s ∧ completesRound s (.exit (.select true .pending)) = true := by
  have received := pollRecv_ended ended empty
  have released : process.dropWait = process := by
    unfold Process.dropWait
    rw [← unlocked]
  obtain ⟨rx, phase', child, events⟩ := s
  cases phase
  obtain ⟨lineBuffered, exit, stdin, stdout, stderr⟩ := tasks
  cases waiting
  constructor
  · have allowed : child.allows (.select true .pending) = true := by cases child <;> rfl
    simp only [Agent.step, allowed, ExitTask.step, selectExit, received, handleKill, released]
    simp [Agent.turned, Agent.advance]
  · simp only [completesRound, ExitTask.completes, goesRound, received]
    rfl

def Agent.idle {ρ : Type} (s : Agent ρ) : Bool :=
  match s.phase, s.child with
  | .running tasks, .running _ =>
    match tasks.exit with
    | .waiting process => !process.locked
    | .sending _ _ | .ended _ => false
  | _, _ => false

theorem Agent.idle_waits {ρ : Type} {s : Agent ρ} (idle : s.idle = true) :
    (∃ pid, s.child = .running pid) ∧
      ∃ tasks process, s.phase = .running tasks ∧ tasks.exit = .waiting process ∧ process.locked = false := by
  unfold Agent.idle at idle
  split at idle
  · rename_i tasks pid phase alive
    split at idle
    · rename_i process waiting
      exact ⟨⟨pid, alive⟩, tasks, process, phase, waiting, by simpa using idle⟩
    all_goals cases idle
  · cases idle

/-- A host that asks for a command, sends a signal and disconnects. -/
def signalling : List ReadEvent :=
  [.data ⟨frame (Message.text (.exec (request "sleep"))), frame_nonempty _⟩,
    .data ⟨frame (Message.text (.kill ⟨15⟩)), frame_nonempty _⟩]

/-- The child ends on the signal before the end of the connection is received. -/
def signalled : List Action :=
  [.receive, .spawn (.ok ⟨7, [], []⟩), .start .sent, .exit (.select true .pending), .childExits 15,
    .exit (.select false (.ready (.ok 15))), .exit (.send .sent)]

theorem exit_rounds_signalled :
    let parse := parseWith (knownText [.exec (request "sleep"), .kill ⟨15⟩])
    let start : Agent (MsgReader parse) := .new (.new signalling)
    let kills := mail Kill (wellFormed ((segments newline (streamOf signalling)).map parse))
    exitRounds start signalled = 2 ∧ ∃ s : Agent (MsgReader parse), exitsEnded s.events ≤ 1 ∧
      (exitRounds start signalled + killsLeft s.toLines ≤ kills.length + exitsEnded s.events ↔
        Throughout Agent.step (fun s action => spins s.toLines action = false) start signalled) := by
  intro parse start kills
  have twice : exitRounds start signalled = 2 := by decide +kernel
  have completes : (execute Agent.step start signalled).isSome = true := by decide +kernel
  obtain ⟨s, run⟩ := Option.isSome_iff_exists.mp completes
  exact ⟨twice, s, exit_rounds parse signalling signalled s run⟩

def mute : List ReadEvent := [.data ⟨frame (Message.text (.exec (request "sleep"))), frame_nonempty _⟩]

/-- Without a single kill, and while the child runs, the loop can go round any
number of times. -/
theorem exit_rounds_unbounded :
    let parse := parseWith (knownText [.exec (request "sleep")])
    mail Kill (wellFormed ((segments newline (streamOf mute)).map parse)) = [] ∧
      ∀ bound, ∃ (actions : List Action) (s : Agent (MsgReader parse)) (pid : UInt32),
        execute Agent.step (.new (.new mute)) actions = some s ∧ s.child = .running pid ∧
          bound ≤ exitRounds (.new (.new mute) : Agent (MsgReader parse)) actions := by
  intro parse
  have noKills : mail Kill (wellFormed ((segments newline (streamOf mute)).map parse)) = [] := by decide +kernel
  refine ⟨noKills, fun bound => ?_⟩
  let start : Agent (MsgReader parse) := .new (.new mute)
  let starting : List Action := [.receive, .spawn (.ok ⟨7, [], []⟩), .start .sent]
  let around : Action := .exit (.select true .pending)
  have starts : (execute Agent.step start starting).map
      (fun s => (s.idle, s.rx.reader.reader, s.rx.reader.buffer, s.rx.msgs.queue)) = some (true, [], [], []) := by
    decide +kernel
  obtain ⟨u, begun, state⟩ := Option.map_eq_some_iff.mp starts
  obtain ⟨idle, rest⟩ := Prod.mk.inj state
  obtain ⟨spent, rest⟩ := Prod.mk.inj rest
  obtain ⟨drained, queue⟩ := Prod.mk.inj rest
  obtain ⟨⟨pid, alive⟩, tasks, process, phase, waiting, unlocked⟩ := Agent.idle_waits idle
  have lines : u.rx.toLines = ⟨⟨[]⟩, ⟨[]⟩⟩ := by
    obtain ⟨⟨⟨reader, buffer⟩, ⟨msgs⟩⟩, phase, child, events⟩ := u
    cases spent
    cases drained
    cases queue
    rfl
  have stays := round_stays (s := u.toLines) phase waiting unlocked (congrArg (·.reader.events) lines)
    (congrArg (fun rx => mail Kill rx.messages) lines)
  have again := execute_replicate stays.1 bound
  rw [Agent.execute_toLines] at again
  obtain ⟨v, spun, same⟩ := Option.map_eq_some_iff.mp again
  have rounds : countSteps Agent.step completesRound u (List.replicate bound around) = bound := by
    rw [← countSteps_map Agent.step_toLines completesRound_toLines u]
    exact countSteps_replicate stays.1 stays.2 bound
  refine ⟨starting ++ List.replicate bound around, v, pid, execute_append.mpr ⟨u, begun, spun⟩, ?_, ?_⟩
  · exact (congrArg Agent.child same).trans alive
  · rw [exitRounds, countSteps_append begun, rounds]
    exact Nat.le_add_left bound _

end MinimalVm.Agent
