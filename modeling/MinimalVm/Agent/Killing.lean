import MinimalVm.Agent.Conversation
import MinimalVm.Agent.Kinds

/-! What becomes of the child when a task fails.

The exit task holds the handle of the child, and a handle that is dropped kills
the child it still waits for. But the tasks are joined: the failure of another
task is looked at only when all have ended, and the exit task ends with the
child.
-/

set_option autoImplicit false

namespace MinimalVm.Agent

open MinimalVm.Semantics MinimalVm.Protocol MinimalVm.Io

def Event.isFailure : Event → Bool
  | .failed _ _ => true
  | _ => false

def Event.kills (pid : UInt32) : Event → Bool
  | .signalled signal => signal == signalPid pid sigkill
  | _ => false

def Event.exits (pid : UInt32) : Event → Bool
  | .childExited other _ => other == pid
  | _ => false

/-- After every failure the child is killed. -/
def Answered (pid : UInt32) (events : List Event) : Prop :=
  Followed (fun event => event.isFailure = true) (fun event => event.kills pid = true) events

/-- Between every failure and a later end of the child, the child is killed. -/
def KilledFirst (pid : UInt32) (events : List Event) : Prop :=
  Separated (fun event => event.isFailure = true) (fun event => event.kills pid = true)
    (fun event => event.exits pid = true) events

def SendPoll.hasFailed : SendPoll → Bool
  | .failed _ _ => true
  | .pending _ | .sent => false

def Selection.fails {ρ : Type} (this : Selection ρ) : Bool :=
  match this.branch with
  | .data (.error _) => true
  | .close => this.pipe.closed
  | .none | .data (.ok _) => false

section
variable {ρ : Type} [MessageReader ρ]

def StdinTask.fails (this : StdinTask) (rx : RxLocal ρ) : StdinTurn → Bool
  | .recv =>
    match (rx.pollRecv (Stdin (Option Bytes))).1 with
    | .ready (.error _) => true
    | .pending | .ready (.ok _) => false
  | .write answer =>
    match this, answer with
    | .writing data, .ready (.error _) | .writing data, .ready (.ok 0) => !data.isEmpty
    | _, _ => false
  | .send polled => polled.hasFailed

def OutputTask.fails (this : OutputTask) (output : Output) (lineBuffered : Bool) (rx : RxLocal ρ) :
    OutputTurn → Bool
  | .select readFirst answered =>
    match this with
    | .reading pipe disabled => (selectOutput output lineBuffered pipe disabled rx readFirst answered).fails
    | .sending _ _ | .finishing _ | .ended _ => false
  | .send polled => polled.hasFailed

/-- The turns in which the exit task learns that the child cannot be awaited. -/
def waitFails (rx : RxLocal ρ) : ExitTurn → Bool
  | .select killFirst (.ready (.error _)) => pollsWait rx killFirst
  | .select _ .pending | .select _ (.ready (.ok _)) | .send _ => false

/-- While the child runs, no task fails but the one that holds its handle, and
this one not for want of the child's status. -/
def guards (s : Agent ρ) (action : Action) : Bool :=
  match s.child, s.phase with
  | .running _, .running tasks =>
    match action with
    | .exit turn => !waitFails s.rx turn
    | .stdin turn => !tasks.stdin.fails s.rx turn
    | .output output turn => !(tasks.output output).fails output tasks.lineBuffered s.rx turn
    | .receive | .spawn _ | .start _ | .join | .fail _ | .close | .childExits _ => true
  | _, _ => true

end

/-! ## Turns without a failure -/

@[simp] theorem isFailure_send (send : Send) (polled : SendPoll) : ¬ Shows Event.isFailure (send.events polled) :=
  shows_send (fun _ => rfl) (fun _ _ => rfl) send polled

section
variable {ρ : Type} [MessageReader ρ] {rx : RxLocal ρ}

theorem StdinTask.step_calm {task : StdinTask} {turn : StdinTurn} {turned : Turn StdinTask ρ}
    (moved : task.step rx turn = some turned) (calm : task.fails rx turn = false) :
    ¬ Shows Event.isFailure turned.events := by
  cases StdinTask.step_turned moved with
  | recv =>
    unfold StdinTask.fails at calm
    generalize rx.pollRecv (Stdin (Option Bytes)) = polled at calm ⊢
    obtain ⟨_ | error | _ | ⟨_ | bytes⟩, rx'⟩ := polled
    · exact shows_nil
    · cases calm
    · exact shows_nil
    · exact shows_nil
    · exact shows_nil
  | write bytes answer =>
    unfold writeStdin
    split
    · exact shows_nil
    · rename_i nonempty
      split
      · exact shows_nil
      · simp [StdinTask.fails, nonempty] at calm
      · split
        · rename_i none
          simp [StdinTask.fails, nonempty, none] at calm
        · simp [Event.isFailure]
  | sends send takes => exact isFailure_send send _
  | sendFailed send takes error => cases calm
  | sent send =>
    show ¬ Shows Event.isFailure (send.events .sent ++ [.finished .stdin])
    simp [Event.isFailure]

omit [MessageReader ρ] in
theorem handleOutput_calm {kind : Event → Bool} {output : Output} {selected : Selection ρ}
    (other : ∀ buffer, kind (.closeHandled output buffer) = false) (before : ¬ Shows kind selected.events)
    (calm : selected.fails = false) : ¬ Shows kind (handleOutput output selected).events := by
  obtain ⟨branch, pipe, disabled, rx', events⟩ := selected
  obtain _ | ⟨error | _ | bytes⟩ | _ := branch
  · exact before
  · cases calm
  · exact before
  · exact before
  · have opened : pipe.closed = false := calm
    simpa [handleOutput, Pipe.close, opened, other] using before

theorem OutputTask.step_calm {task : OutputTask} {output : Output} {lineBuffered : Bool} {turn : OutputTurn}
    {turned : Turn OutputTask ρ} (moved : task.step output lineBuffered rx turn = some turned)
    (calm : task.fails output lineBuffered rx turn = false) : ¬ Shows Event.isFailure turned.events := by
  cases OutputTask.step_turned moved with
  | select pipe disabled readFirst answered =>
    have selected := selectOutput_selected output lineBuffered pipe disabled rx readFirst answered
    exact handleOutput_calm (fun _ => rfl) (selected.overhears.shows fun _ _ => rfl) calm
  | sends pipe send takes => exact isFailure_send send _
  | sendFailed pipe send takes error => cases calm
  | sent pipe send => exact isFailure_send send _
  | finishes send takes => exact isFailure_send send _
  | finishFailed send takes error => cases calm
  | finished send =>
    show ¬ Shows Event.isFailure (send.events .sent ++ [.finished (.output output)])
    simp [Event.isFailure]

end

/-! ## The handle of the child -/

theorem answered_of_calm {pid : UInt32} {events : List Event} (calm : ¬ Shows Event.isFailure events) :
    Answered pid events :=
  followed_of_none fun event member failure => calm ⟨event, member, failure⟩

theorem Answered.calm {pid : UInt32} {events more : List Event} (before : Answered pid events)
    (calm : ¬ Shows Event.isFailure more) : Answered pid (events ++ more) :=
  Followed.append before (answered_of_calm calm)

/-- The exit task still holds a handle that kills the child, or has let go of it. -/
def ExitTask.Holds (pid : UInt32) : ExitTask → Prop
  | .waiting process => process.Unawaited pid
  -- The end of the child has been observed, so the child does not run.
  | .sending _ _ => False
  | .ended _ => True

def Phase.Holds (pid : UInt32) : Phase → Prop
  | .receiving | .spawning _ => False
  | .starting _ process _ _ => process.Unawaited pid
  | .running tasks => tasks.exit.Holds pid
  | .failing _ _ | .closing _ | .done _ => True

section
variable {ρ : Type} [MessageReader ρ] {rx : RxLocal ρ} {s t : Agent ρ} {action : Action} {pid : UInt32}

theorem ExitMove.answered {task task' : ExitTask} {turn : ExitTurn} {events : List Event}
    (move : ExitMove rx task turn events task') (holds : task.Holds pid)
    (allowed : (ChildState.running pid).allows turn = true) (guarded : waitFails rx turn = false) :
    Answered pid events ∧ task'.Holds pid := by
  cases move with
  | waits signals kept => exact ⟨answered_of_calm (by simp [Event.isFailure]), kept pid holds⟩
  | @recvFailed process process' killFirst answer error kept =>
    -- The handle is dropped right after the failure.
    refine ⟨Followed.append (answered_of_calm (shows_malformed (fun _ _ => rfl) _ _)) ?_, trivial⟩
    refine Followed.cons ⟨.signalled (signalPid pid sigkill), ?_, ?_⟩ (answered_of_calm (by simp [Event.isFailure]))
    · rw [Process.drop_kills (kept pid holds)]
      exact List.mem_singleton_self _
    · simp [Event.kills]
  | waitFailed error signals polls answered =>
    obtain ⟨cause, rfl⟩ := answered pid holds
    exact absurd (polls.symm.trans guarded) nofun
  | exits process' status answered =>
    cases answered pid holds
    cases allowed
  | sends takes => exact holds.elim
  | sent signals => exact holds.elim
  | sendFailed takes error signals => exact holds.elim

def Early (events : List Event) : Phase → Prop
  | .receiving | .spawning _ => events = []
  | _ => True

structure Guarded (s : Agent ρ) : Prop where
  early : Early s.events s.phase
  holds : ∀ pid, s.child = .running pid → s.phase.Holds pid
  answered : ∀ pid, s.child = .running pid → Answered pid s.events
  killedFirst : ∀ pid, KilledFirst pid s.events

omit [MessageReader ρ] in
theorem Guarded.not_receiving (before : Guarded s) (alive : s.child = .running pid) : s.phase ≠ .receiving := by
  intro phase
  have holds := before.holds pid alive
  rw [phase] at holds
  exact holds

omit [MessageReader ρ] in
theorem Guarded.not_spawning {exec : Exec} (before : Guarded s) (alive : s.child = .running pid) :
    s.phase ≠ .spawning exec := by
  intro phase
  have holds := before.holds pid alive
  rw [phase] at holds
  exact holds

theorem AgentMove.early (move : AgentMove s action t) (before : Guarded s) : Early t.events t.phase := by
  have early := before.early
  cases move with
  | receives rx phase => exact early
  | requested rx exec phase =>
    rw [phase] at early
    exact (List.append_nil _).trans early
  | refuses | disconnected | spawnFailed | spawned | starts | started | startFailed | exit | stdin | output
  | joined | joinFailed | reports | reported | reportFailed | closes => trivial
  | childExits status alive =>
    have received := before.not_receiving alive
    have spawned (exec : Exec) : s.phase ≠ .spawning exec := before.not_spawning alive
    generalize s.phase = phase at received spawned ⊢
    cases phase with
    | receiving => exact absurd rfl received
    | spawning exec => exact absurd rfl (spawned exec)
    | starting | running | failing | closing | done => trivial

theorem AgentMove.answered (move : AgentMove s action t) (guarded : guards s action = true) (before : Guarded s)
    (alive : t.child = .running pid) : Answered pid t.events ∧ t.phase.Holds pid := by
  cases move with
  | receives rx phase => exact ⟨before.answered pid alive, before.holds pid alive⟩
  | refuses rx error phase => exact absurd phase (before.not_receiving alive)
  | disconnected rx phase => exact absurd phase (before.not_receiving alive)
  | requested rx exec phase => exact absurd phase (before.not_receiving alive)
  | spawnFailed debug phase => exact absurd phase (before.not_spawning alive)
  -- Nothing has failed before the child was spawned.
  | spawned child phase =>
    cases alive
    have none := before.early
    rw [phase] at none
    refine ⟨?_, Process.unawaited_spawned child.pid⟩
    exact answered_of_calm (by simp [Agent.handleSpawn, Agent.advance, show s.events = [] from none, Event.isFailure])
  | starts takes phase =>
    have holds := before.holds pid alive
    rw [phase] at holds
    exact ⟨(before.answered pid alive).calm (isFailure_send _ _), holds⟩
  | started phase =>
    have holds := before.holds pid alive
    rw [phase] at holds
    exact ⟨(before.answered pid alive).calm (isFailure_send _ _), holds⟩
  | startFailed takes error phase =>
    exact ⟨(before.answered pid alive).calm (by simp [Event.isFailure]), trivial⟩
  -- Only this task may fail while the child runs, and its handle kills the child then.
  | exit turned phase allowed stepped =>
    have running : s.child = .running pid := alive
    have holds := before.holds pid running
    rw [phase] at holds
    rw [running] at allowed
    simp only [guards, running, phase, Bool.not_eq_true'] at guarded
    obtain ⟨answered, holds'⟩ := (ExitTask.step_move stepped).answered holds allowed guarded
    exact ⟨Followed.append (before.answered pid running) answered, holds'⟩
  -- By the guard this task does not fail.
  | stdin turned phase stepped =>
    have running : s.child = .running pid := alive
    have holds := before.holds pid running
    rw [phase] at holds
    simp only [guards, running, phase, Bool.not_eq_true'] at guarded
    exact ⟨(before.answered pid running).calm (StdinTask.step_calm stepped guarded), holds⟩
  | @output tasks output turn turned phase stepped =>
    have running : s.child = .running pid := alive
    have holds := before.holds pid running
    rw [phase] at holds
    simp only [guards, running, phase, Bool.not_eq_true'] at guarded
    refine ⟨(before.answered pid running).calm (OutputTask.step_calm stepped guarded), ?_⟩
    simpa [Agent.turned, Agent.advance, Phase.Holds] using holds
  | joined phase joined => exact ⟨(before.answered pid alive).calm shows_nil, trivial⟩
  | joinFailed phase joined => exact ⟨(before.answered pid alive).calm shows_nil, trivial⟩
  | reports takes phase => exact ⟨(before.answered pid alive).calm (isFailure_send _ _), trivial⟩
  | reported phase => exact ⟨(before.answered pid alive).calm (isFailure_send _ _), trivial⟩
  | reportFailed takes cause phase => exact ⟨(before.answered pid alive).calm (isFailure_send _ _), trivial⟩
  | closes phase => exact ⟨(before.answered pid alive).calm shows_nil, trivial⟩
  | childExits status running => cases alive

/-! ## The end of the child -/

@[simp] theorem exits_send (send : Send) (polled : SendPoll) : ¬ Shows (Event.exits pid) (send.events polled) :=
  shows_send (fun _ => rfl) (fun _ _ => rfl) send polled

@[simp] theorem exits_malformed (task : Task) (error : RecvError) :
    ¬ Shows (Event.exits pid) (malformed task error) :=
  shows_malformed (fun _ _ => rfl) task error

theorem ExitMove.no_exit {task task' : ExitTask} {turn : ExitTurn} {events : List Event}
    (move : ExitMove rx task turn events task') : ¬ Shows (Event.exits pid) events := by
  cases move <;> simp [Event.exits]

theorem StdinMove.no_exit {task task' : StdinTask} {events : List Event}
    (move : StdinMove task events task') : ¬ Shows (Event.exits pid) events := by
  cases move <;> simp [Event.exits]

theorem OutputMove.no_exit {output : Output} {task task' : OutputTask} {events : List Event}
    (move : OutputMove output rx task events task') : ¬ Shows (Event.exits pid) events := by
  have quiet {heard : List Event} (overhears : Overhears output rx heard) : ¬ Shows (Event.exits pid) heard :=
    overhears.shows fun _ _ => rfl
  cases move with
  | waits pipe' disabled' same overhears => exact quiet overhears
  | data pipe' bytes same overhears => exact quiet overhears
  | eof opened overhears => exact quiet overhears
  | readFailed error overhears => simp [quiet overhears, Event.exits]
  | close | closeAgain | sends | sent | sendFailed | finishes | finished | finishFailed => simp [Event.exits]

theorem KilledFirst.append {events more : List Event} (before : KilledFirst pid events)
    (none : ¬ Shows (Event.exits pid) more) : KilledFirst pid (events ++ more) :=
  Separated.append before fun event member exits => none ⟨event, member, exits⟩

theorem AgentMove.killedFirst (move : AgentMove s action t) (before : Guarded s) : KilledFirst pid t.events := by
  have earlier := before.killedFirst pid
  cases move with
  | receives rx phase => exact earlier
  | refuses rx error phase => exact earlier.append (exits_malformed _ _)
  | disconnected | requested | spawnFailed | joined | joinFailed | closes => exact earlier.append shows_nil
  | spawned child phase => exact earlier.append (by simp [Event.exits])
  | starts | started | reports | reported | reportFailed => exact earlier.append (exits_send _ _)
  | startFailed takes error phase => exact earlier.append (by simp [Event.exits])
  | exit turned phase allowed stepped => exact earlier.append (ExitTask.step_move stepped).no_exit
  | stdin turned phase stepped => exact earlier.append (StdinTask.step_move stepped).no_exit
  | output turned phase stepped => exact earlier.append (OutputTask.step_move stepped).no_exit
  | @childExits ended status alive =>
    by_cases same : ended = pid
    · subst same
      -- The child runs until now, so every failure has been answered.
      exact Separated.snoc earlier (before.answered ended alive)
    · exact earlier.append (by simp [Event.exits, same])

theorem AgentMove.guarded (move : AgentMove s action t) (guarded : guards s action = true) (before : Guarded s) :
    Guarded t where
  early := move.early before
  holds _ alive := (move.answered guarded before alive).2
  answered _ alive := (move.answered guarded before alive).1
  killedFirst _ := move.killedFirst before

omit [MessageReader ρ] in
theorem Guarded.new (reader : ρ) : Guarded (Agent.new reader) where
  early := rfl
  holds _ := nofun
  answered _ := nofun
  killedFirst _ := separated_of_none nofun

end

/-- As long as no task fails while the child runs except the one that can kill
it, a failure is always followed by a kill before the child ends. -/
theorem failure_kills {ρ : Type} [MessageReader ρ] (reader : ρ) (actions : List Action) (s : Agent ρ)
    (run : execute Agent.step (.new reader) actions = some s)
    (met : Throughout Agent.step (fun s action => guards s action = true) (.new reader) actions) (pid : UInt32) :
    KilledFirst pid s.events := by
  have holds : Guarded s := invariant_throughout Guarded
    (fun s action t before guarded moved => (Agent.step_move moved).guarded guarded before) (.new reader) met run
  exact holds.killedFirst pid

def broken : Connection :=
  ⟨[.line (.ok (.exec (request "cat"))), .failed ⟨"Connection reset by peer (os error 104)"⟩]⟩

def breaking : List Action :=
  [.receive, .spawn (.ok ⟨7, [], []⟩), .start .sent, .exit (.select true .pending), .childExits 9, .stdin .recv,
    .stdin (.send .sent), .output .stdout (.select true false), .output .stdout (.send .sent),
    .output .stderr (.select true false), .output .stderr (.send .sent), .join, .fail .sent, .close]

theorem failure_kills_broken :
    ∃ s : Agent Connection, Shows Event.isFailure s.events ∧ Shows (Event.exits 7) s.events ∧
      KilledFirst 7 s.events := by
  have completes : (execute Agent.step (.new broken) breaking).map
      (fun s => (s.events.any Event.isFailure, s.events.any (Event.exits 7))) = some (true, true) := by decide +kernel
  have met : Throughout Agent.step (fun s action => guards s action = true) (.new broken) breaking := by
    decide +kernel
  obtain ⟨s, run, shown⟩ := Option.map_eq_some_iff.mp completes
  obtain ⟨failed, exited⟩ := Prod.mk.inj shown
  exact ⟨s, shows_of_any failed, shows_of_any exited, failure_kills _ breaking s run met 7⟩

def deaf : List Action :=
  [.receive, .spawn (.ok ⟨7, [], []⟩), .start .sent, .stdin .recv,
    .stdin (.write (.ready (.error ⟨"Broken pipe (os error 32)"⟩))), .childExits 0,
    .exit (.select false (.ready (.ok 0))), .exit (.send .sent), .output .stdout (.select true false),
    .output .stdout (.send .sent), .output .stderr (.select true false), .output .stderr (.send .sent), .join,
    .fail .sent, .close]

theorem failure_without_kill :
    ∃ (s : Agent Connection) (status : Ending),
      execute Agent.step (.new ⟨messageLines [.exec (request "true"), .stdin (.data [104, 105])]⟩) deaf = some s ∧
        s.phase = .done status ∧ ¬ KilledFirst 7 s.events := by
  have completes : (execute Agent.step
      (.new (⟨messageLines [.exec (request "true"), .stdin (.data [104, 105])]⟩ : Connection)) deaf).map
      (fun s => (s.phase.status?.isSome, s.events.take 4)) =
      some (true, [.spawned 7, .enqueued (.started ⟨7⟩), .failed .stdin (.io ⟨"Broken pipe (os error 32)"⟩),
        .childExited 7 0]) := by
    decide +kernel
  obtain ⟨s, run, ended⟩ := Option.map_eq_some_iff.mp completes
  obtain ⟨done, first⟩ := Prod.mk.inj ended
  obtain ⟨status, same⟩ := Option.isSome_iff_exists.mp done
  refine ⟨s, status, run, Phase.status?_some same, fun killed => ?_⟩
  have split : s.events = [.spawned 7, .enqueued (.started ⟨7⟩)] ++
      .failed .stdin (.io ⟨"Broken pipe (os error 32)"⟩) :: ([] ++ .childExited 7 0 :: s.events.drop 4) := by
    rw [← List.take_append_drop 4 s.events, first]
    rfl
  obtain ⟨event, member, -⟩ := killed _ _ _ _ _ split rfl rfl
  cases member

end MinimalVm.Agent
