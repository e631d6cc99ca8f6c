import MinimalVm.Agent.Killing

/-! What becomes of a host close.

Asked to close an output stream, the task closes the descriptor and reads on.
The reads that follow are answered with an error or not at all, and no end of
file is ever read. So the task either fails or waits for good, and in neither
case tells the host that the stream is closed.
-/

set_option autoImplicit false

namespace MinimalVm.Agent

open MinimalVm.Semantics MinimalVm.Protocol MinimalVm.Io MinimalVm.Text

def Event.task? : Event → Option Task
  | .malformed task _ | .failed task _ | .finished task => some task
  | .closeHandled output _ => some (.output output)
  | .written _ => some .stdin
  | .enqueued _ | .sendFailed _ _ | .spawned _ | .signalled _ | .childExited _ _ => none

def Event.isOf (task : Task) (event : Event) : Bool := event.task? == some task

def Event.closes (output : Output) : Event → Bool
  | .closeHandled other _ => other == output
  | _ => false

def Event.ends (task : Task) : Event → Bool
  | .failed other _ | .finished other => other == task
  | _ => false

def Event.sendFails : Event → Bool
  | .sendFailed _ _ => true
  | _ => false

/-- A task that has handled a host close does not end before it has sent what
its buffer held then, and said once that the stream is closed. -/
def Acknowledged (output : Output) (events : List Event) : Prop :=
  ∀ first buffer middle x last, events = first ++ .closeHandled output buffer :: (middle ++ x :: last) →
    x.ends (.output output) = true →
    ∃ datas, saidBy (.output output) (logOf middle) = streamed output datas ++ [output.message .closed] ∧
      buffer <+: datas.flatten

/-- The buffer holds a line that a read returns without asking the system. -/
def Pipe.holdsLine (this : Pipe) (lineBuffered : Bool) : Bool := lineBuffered && this.buffer.contains newline

/-- The next message for the stream asks to close it. -/
def Output.asksClose {ρ : Type} [MessageReader ρ] (output : Output) (rx : RxLocal ρ) : Bool :=
  match (output.pollRecv rx).1 with
  | .ready (.ok (some .closed)) => true
  | .ready (.ok (some (.data _))) | .ready (.ok none) | .ready (.error _) | .pending => false

/-- A selection in which a task that has closed its descriptor reads the error
of the closed number, or is asked to close it again. A line in the buffer comes
before the error, and before the message if the read is polled first. -/
def strands {ρ : Type} [MessageReader ρ] (output : Output) (s : Agent ρ) (action : Action) : Bool :=
  match s.phase, action with
  | .running tasks, .output other (.select readFirst answered) =>
    match tasks.output output with
    | .reading pipe disabled =>
      let line := pipe.holdsLine tasks.lineBuffered
      other == output && pipe.closed &&
        (answered && !line || !disabled && output.asksClose s.rx && !(readFirst && line))
    | .sending _ _ | .finishing _ | .ended _ => false
  | _, _ => false

/-! ## What the other tasks leave alone -/

section
variable {task : Task} {output : Output}

@[simp] theorem isOf_send (send : Send) (polled : SendPoll) : ¬ Shows (Event.isOf task) (send.events polled) :=
  shows_send (fun _ => rfl) (fun _ _ => rfl) send polled

theorem sendFails_failed (send : Send) (takes : Bool) (error : SendError) (rest : List Event) :
    Shows Event.sendFails (send.events (.failed takes error) ++ rest) :=
  ⟨_, List.mem_append_left _ (List.mem_append_right _ (List.mem_singleton_self _)), rfl⟩

theorem isOf_malformed {other : Task} (apart : other ≠ task) (error : RecvError) :
    ¬ Shows (Event.isOf task) (malformed other error) := by
  cases error with
  | parse cause => simp [malformed, Event.isOf, Event.task?, apart]
  | read cause => exact shows_nil

theorem Shows.isOf_of_closes {events : List Event} (shown : Shows (Event.closes output) events) :
    Shows (Event.isOf (.output output)) events := by
  obtain ⟨event, member, closes⟩ := shown
  refine ⟨event, member, ?_⟩
  cases event with
  | closeHandled other buffer => simpa [Event.isOf, Event.task?, Event.closes] using closes
  | _ => cases closes

theorem Shows.isOf_of_ends {events : List Event} (shown : Shows (Event.ends task) events) :
    Shows (Event.isOf task) events := by
  obtain ⟨event, member, ends⟩ := shown
  refine ⟨event, member, ?_⟩
  cases event with
  | failed other error => simpa [Event.isOf, Event.task?, Event.ends] using ends
  | finished other => simpa [Event.isOf, Event.task?, Event.ends] using ends
  | _ => cases ends

variable {ρ : Type} [MessageReader ρ] {rx : RxLocal ρ} {s t : Agent ρ} {action : Action}

theorem ExitMove.others {task' task'' : ExitTask} {turn : ExitTurn} {events : List Event} (apart : .exit ≠ task)
    (move : ExitMove rx task' turn events task'') : ¬ Shows (Event.isOf task) events := by
  cases move <;> simp [Event.isOf, Event.task?, apart, isOf_malformed apart]

theorem StdinMove.others {task' task'' : StdinTask} {events : List Event} (apart : .stdin ≠ task)
    (move : StdinMove task' events task'') : ¬ Shows (Event.isOf task) events := by
  cases move <;> simp [Event.isOf, Event.task?, apart, isOf_malformed apart]

theorem OutputMove.others {other : Output} {task' task'' : OutputTask} {events : List Event}
    (apart : .output other ≠ task) (move : OutputMove other rx task' events task'') :
    ¬ Shows (Event.isOf task) events := by
  have quiet {heard : List Event} (overhears : Overhears other rx heard) : ¬ Shows (Event.isOf task) heard := by
    cases overhears with
    | nothing => exact shows_nil
    | malformed received => simp [Event.isOf, Event.task?, apart]
  cases move with
  | waits pipe' disabled' same overhears => exact quiet overhears
  | data pipe' bytes same overhears => exact quiet overhears
  | eof opened overhears => exact quiet overhears
  | readFailed error overhears => simp [quiet overhears, Event.isOf, Event.task?, apart]
  | close | closeAgain | sends | sent | sendFailed | finishes | finished | finishFailed =>
    simp [Event.isOf, Event.task?, apart]

/-! ## The descriptor of the stream -/

def OutputTask.Tracks (closed : Prop) : OutputTask → Prop
  | .reading pipe _ | .sending pipe _ => pipe.closed = true ↔ closed
  | .finishing _ => ¬ closed
  | .ended _ => True

def Phase.Tracks (output : Output) (closed : Prop) : Phase → Prop
  | .receiving | .spawning _ | .starting _ _ _ _ => ¬ closed
  | .running tasks => (tasks.output output).Tracks closed
  | .failing _ _ | .closing _ | .done _ => True

@[simp] theorem closes_send (send : Send) (polled : SendPoll) : ¬ Shows (Event.closes output) (send.events polled) :=
  shows_send (fun _ => rfl) (fun _ _ => rfl) send polled

@[simp] theorem ends_send (send : Send) (polled : SendPoll) : ¬ Shows (Event.ends task) (send.events polled) :=
  shows_send (fun _ => rfl) (fun _ _ => rfl) send polled

theorem OutputMove.tracks {task task' : OutputTask} {events : List Event} {closed : Prop}
    (move : OutputMove output rx task events task') (before : task.Tracks closed) :
    task'.Tracks (closed ∨ Shows (Event.closes output) events) := by
  have quiet {heard : List Event} (overhears : Overhears output rx heard) : ¬ Shows (Event.closes output) heard :=
    overhears.shows fun _ _ => rfl
  cases move with
  | waits pipe' disabled' same overhears => simpa [OutputTask.Tracks, quiet overhears, same] using before
  | data pipe' bytes same overhears => simpa [OutputTask.Tracks, quiet overhears, same] using before
  | eof opened overhears => simpa [OutputTask.Tracks, quiet overhears, opened] using before
  | close pipe' buffer opened closed' => simp [OutputTask.Tracks, closed', Event.closes]
  | sends | sent | finishes => simpa [OutputTask.Tracks] using before
  | readFailed | closeAgain | sendFailed | finished | finishFailed => trivial

theorem AgentMove.beside (move : AgentMove s action t) (output : Output) :
    (∃ tasks turn turned, s.phase = .running tasks ∧ action = .output output turn ∧
      (tasks.output output).step output tasks.lineBuffered s.rx turn = some turned ∧
      t = s.turned (fun task => tasks.setOutput task output) turned) ∨
    ∃ more, t.events = s.events ++ more ∧ ¬ Shows (Event.isOf (.output output)) more ∧
      ∀ closed, s.phase.Tracks output closed → t.phase.Tracks output closed := by
  cases move with
  | receives rx phase => exact .inr ⟨[], (List.append_nil _).symm, shows_nil, fun closed => id⟩
  | refuses rx error phase =>
    have apart : Task.main ≠ .output output := fun same => Task.noConfusion same
    exact .inr ⟨_, rfl, isOf_malformed apart error, fun closed _ => trivial⟩
  | requested rx exec phase =>
    refine .inr ⟨_, rfl, shows_nil, fun closed before => ?_⟩
    rw [phase] at before
    exact before
  | spawned child phase =>
    refine .inr ⟨_, rfl, by simp [Event.isOf, Event.task?], fun closed before => ?_⟩
    rw [phase] at before
    exact before
  | starts takes phase =>
    refine .inr ⟨_, rfl, isOf_send _ _, fun closed before => ?_⟩
    rw [phase] at before
    exact before
  | started phase =>
    refine .inr ⟨_, rfl, isOf_send _ _, fun closed before => ?_⟩
    rw [phase] at before
    have opened : ¬ closed := before
    cases output <;> simp [Agent.advance, Phase.Tracks, Tasks.new, Tasks.output, OutputTask.Tracks, Pipe.new, opened]
  | startFailed takes error phase =>
    exact .inr ⟨_, rfl, by simp [Event.isOf, Event.task?], fun closed _ => trivial⟩
  | exit turned phase allowed stepped =>
    have apart : Task.exit ≠ .output output := fun same => Task.noConfusion same
    refine .inr ⟨_, rfl, (ExitTask.step_move stepped).others apart, fun closed before => ?_⟩
    rw [phase] at before
    cases output <;> exact before
  | stdin turned phase stepped =>
    have apart : Task.stdin ≠ .output output := fun same => Task.noConfusion same
    refine .inr ⟨_, rfl, (StdinTask.step_move stepped).others apart, fun closed before => ?_⟩
    rw [phase] at before
    cases output <;> exact before
  | @output tasks other turn turned phase stepped =>
    -- The two output tasks do the same, each with its own descriptor.
    by_cases same : other = output
    · subst same
      exact .inl ⟨tasks, turn, turned, phase, rfl, stepped, rfl⟩
    · refine .inr ⟨_, rfl, (OutputTask.step_move stepped).others fun equal => same (Task.output.inj equal), ?_⟩
      intro closed before
      rw [phase] at before
      simpa [Agent.turned, Agent.advance, Phase.Tracks, Tasks.setOutput_other _ _ same] using before
  | disconnected | spawnFailed | joined | joinFailed =>
    exact .inr ⟨_, rfl, shows_nil, fun closed _ => trivial⟩
  | reports | reported | reportFailed => exact .inr ⟨_, rfl, isOf_send _ _, fun closed _ => trivial⟩
  | closes phase => exact .inr ⟨_, rfl, shows_nil, fun closed _ => trivial⟩
  | childExits status alive => exact .inr ⟨_, rfl, by simp [Event.isOf, Event.task?], fun closed => id⟩

theorem AgentMove.tracks (move : AgentMove s action t)
    (before : s.phase.Tracks output (Shows (Event.closes output) s.events)) :
    t.phase.Tracks output (Shows (Event.closes output) t.events) := by
  rcases move.beside output with ⟨tasks, turn, turned, phase, -, stepped, rfl⟩ | ⟨more, grown, quiet, kept⟩
  · rw [phase] at before
    have after := (OutputTask.step_move stepped).tracks before
    simpa [Agent.turned, Agent.advance, Phase.Tracks] using after
  · have same : Shows (Event.closes output) t.events ↔ Shows (Event.closes output) s.events := by
      rw [grown, shows_append]
      exact or_iff_left fun shown => quiet shown.isOf_of_closes
    rw [propext same]
    exact kept _ before

omit [MessageReader ρ] in
theorem tracks_new (reader : ρ) (output : Output) :
    (Agent.new reader).phase.Tracks output (Shows (Event.closes output) (Agent.new reader).events) := shows_nil

theorem tracks_run {reader : ρ} {actions : List Action} (run : execute Agent.step (.new reader) actions = some s)
    (output : Output) : s.phase.Tracks output (Shows (Event.closes output) s.events) :=
  invariant_execute (fun s : Agent ρ => s.phase.Tracks output (Shows (Event.closes output) s.events))
    (fun _ _ _ before moved => (Agent.step_move moved).tracks before) (tracks_new reader output) run

/-! ## Selections on a closed descriptor -/

theorem Pipe.pollRead_stale {pipe : Pipe} (closed : pipe.closed = true) (lineBuffered answered : Bool) :
    (pipe.holdsLine lineBuffered = true ∧ ∃ line, (pipe.pollRead lineBuffered answered).1 = .ready (.ok (some line))) ∨
      pipe.holdsLine lineBuffered = false ∧
        (pipe.pollRead lineBuffered answered).1 = if answered then .ready (.error badDescriptor) else .pending := by
  simp only [pollRead, closed, if_true, holdsLine]
  cases lineBuffered with
  | false => exact .inr ⟨rfl, by cases answered <;> rfl⟩
  | true =>
    rw [readLineOrChunk, if_pos rfl, Bool.true_and, List.contains_iff_mem, ← Bool.not_eq_true, List.contains_iff_mem]
    unfold readLine
    split
    · rename_i pos found
      obtain ⟨-, split⟩ := position_some found
      refine .inl ⟨?_, _, rfl⟩
      rw [split]
      exact List.mem_append_right _ List.mem_cons_self
    · rename_i none
      exact .inr ⟨position_none.mp none, by cases answered <;> rfl⟩

theorem selectClose_branch (output : Output) (pipe : Pipe) (disabled : Bool) (rx : RxLocal ρ) :
    (selectClose output pipe disabled rx).pipe = pipe ∧
      (selectClose output pipe disabled rx).branch =
        if (!disabled && output.asksClose rx) = true then .close else .none := by
  unfold selectClose Output.asksClose
  cases disabled with
  | true => exact ⟨rfl, rfl⟩
  | false => obtain ⟨_ | error | _ | bytes | _, rx'⟩ := output.pollRecv rx <;> exact ⟨rfl, rfl⟩

theorem selectOutput_stale {pipe : Pipe} (closed : pipe.closed = true) (lineBuffered disabled readFirst answered : Bool)
    (rx : RxLocal ρ) :
    let line := pipe.holdsLine lineBuffered
    (selectOutput output lineBuffered pipe disabled rx readFirst answered).fails =
      (answered && !line || !disabled && output.asksClose rx && !(readFirst && line)) := by
  intro line
  have read := pipe.pollRead_stale closed lineBuffered answered
  have kept := pipe.pollRead_closed lineBuffered answered
  unfold selectOutput
  generalize pipe.pollRead lineBuffered answered = result at read kept
  obtain ⟨outcome, pipe'⟩ := result
  cases readFirst with
  | true =>
    rw [if_pos rfl]
    rcases read with ⟨holds, bytes, rfl⟩ | ⟨holds, rfl⟩
    · simp [line, holds, Selection.fails]
    · cases answered with
      | true => simp [line, holds, Selection.fails]
      | false =>
        obtain ⟨same, branch⟩ := selectClose_branch output pipe' disabled rx
        cases asks : !disabled && output.asksClose rx <;>
          simp [line, holds, Selection.fails, same, branch, asks, show pipe'.closed = true from kept.trans closed]
  | false =>
    obtain ⟨same, branch⟩ := selectClose_branch output pipe disabled rx
    cases asks : !disabled && output.asksClose rx with
    | true => simp [Selection.fails, same, branch, asks, closed]
    | false =>
      rcases read with ⟨holds, bytes, rfl⟩ | ⟨holds, rfl⟩
      · simp [line, holds, Selection.fails, branch, asks]
      · cases answered <;> simp [line, holds, Selection.fails, branch, asks]

/-! ## Tasks that do not end -/

/-- A task that has handled a close does not end. -/
def Unended (output : Output) (events : List Event) : Prop :=
  Separated (fun event => event.closes output = true) (fun _ => False)
    (fun event => event.ends (.output output) = true) events

theorem Unended.acknowledged {events : List Event} (unended : Unended output events) :
    Acknowledged output events := by
  intro first buffer middle x last split ends
  obtain ⟨_, _, impossible⟩ := unended first _ middle x last split (by simp [Event.closes]) ends
  exact impossible.elim

theorem Unended.append {events more : List Event} (before : Unended output events)
    (none : ¬ Shows (Event.ends (.output output)) more) : Unended output (events ++ more) :=
  Separated.append before fun event member ends => none ⟨event, member, ends⟩

theorem unended_of_unclosed {events : List Event} (none : ¬ Shows (Event.closes output) events) :
    Unended output events :=
  separated_of_no_first fun event member closes => none ⟨event, member, closes⟩

theorem OutputTask.step_ends {task : OutputTask} {lineBuffered : Bool} {turn : OutputTurn}
    {turned : Turn OutputTask ρ} (moved : task.step output lineBuffered rx turn = some turned)
    (ends : Shows (Event.ends (.output output)) turned.events) :
    (∃ pipe disabled readFirst answered, task = .reading pipe disabled ∧ turn = .select readFirst answered ∧
      (selectOutput output lineBuffered pipe disabled rx readFirst answered).fails = true) ∨
    (∃ send, task = .finishing send) ∨ Shows Event.sendFails turned.events := by
  cases OutputTask.step_turned moved with
  | select pipe disabled readFirst answered =>
    refine .inl ⟨pipe, disabled, readFirst, answered, rfl, rfl, ?_⟩
    by_cases fails : (selectOutput output lineBuffered pipe disabled rx readFirst answered).fails = true
    · exact fails
    · have selected := selectOutput_selected output lineBuffered pipe disabled rx readFirst answered
      have quiet : ¬ Shows (Event.ends (.output output)) _ := selected.overhears.shows fun _ _ => rfl
      exact absurd ends (handleOutput_calm (fun _ => rfl) quiet (Bool.eq_false_iff.mpr fails))
  | sends pipe send takes => exact absurd ends (ends_send send _)
  | sendFailed pipe send takes error =>
    exact .inr (.inr (sendFails_failed send takes error _))
  | sent pipe send => exact absurd ends (ends_send send _)
  | finishes send takes => exact .inr (.inl ⟨send, rfl⟩)
  | finishFailed send takes error => exact .inr (.inl ⟨send, rfl⟩)
  | finished send => exact .inr (.inl ⟨send, rfl⟩)

theorem OutputMove.closes_again {task task' : OutputTask} {events : List Event}
    (move : OutputMove output rx task events task') (closes : Shows (Event.closes output) events)
    (ends : Shows (Event.ends (.output output)) events) :
    ∃ pipe disabled, task = .reading pipe disabled ∧ pipe.closed = true := by
  have quiet {heard : List Event} (overhears : Overhears output rx heard) : ¬ Shows (Event.closes output) heard :=
    overhears.shows fun _ _ => rfl
  cases move with
  | closeAgain buffer errno closed => exact ⟨_, _, rfl, closed⟩
  | close pipe' buffer opened closed => simp [Event.ends] at ends
  | waits pipe' disabled' same overhears => exact absurd closes (quiet overhears)
  | data pipe' bytes same overhears => exact absurd closes (quiet overhears)
  | eof opened overhears => exact absurd closes (quiet overhears)
  | readFailed error overhears => simp [quiet overhears, Event.closes] at closes
  | sends | sent | sendFailed | finishes | finished | finishFailed => simp [Event.closes] at closes

theorem AgentMove.unended (move : AgentMove s action t) (calm : strands output s action = false)
    (tracks : s.phase.Tracks output (Shows (Event.closes output) s.events)) (before : Unended output s.events)
    (sent : ¬ Shows Event.sendFails t.events) : Unended output t.events := by
  rcases move.beside output with ⟨tasks, turn, turned, phase, rfl, stepped, rfl⟩ | ⟨more, grown, quiet, -⟩
  · by_cases ends : Shows (Event.ends (.output output)) turned.events
    · rw [phase] at tracks
      -- The task can only have ended because it had not handled a close.
      have unclosed : ¬ Shows (Event.closes output) s.events ∧
          ∀ pipe disabled, tasks.output output = .reading pipe disabled → pipe.closed = false := by
        rcases OutputTask.step_ends stepped ends with
          ⟨pipe, disabled, readFirst, answered, reading, rfl, fails⟩ | ⟨send, finishing⟩ | failed
        · have opened : pipe.closed = false := Bool.eq_false_iff.mpr fun closed => by
            rw [selectOutput_stale closed] at fails
            have stranded : strands output s (.output output (.select readFirst answered)) = true := by
              simp only [strands, phase, reading, closed, fails, beq_self_eq_true, Bool.and_self]
            cases stranded.symm.trans calm
          have same : pipe.closed = true ↔ Shows (Event.closes output) s.events := by
            simpa only [Phase.Tracks, reading, OutputTask.Tracks] using tracks
          refine ⟨fun shown => ?_, fun pipe' disabled' reading' => ?_⟩
          · exact absurd (same.mpr shown) (Bool.eq_false_iff.mp opened)
          · cases reading.symm.trans reading'
            exact opened
        · refine ⟨by simpa only [Phase.Tracks, finishing, OutputTask.Tracks] using tracks, ?_⟩
          intro pipe disabled reading
          cases finishing.symm.trans reading
        · exact absurd ((shows_append _ _).mpr (.inr failed)) sent
      refine unended_of_unclosed fun shown => ?_
      rcases (shows_append _ _).mp shown with old | new
      · exact unclosed.1 old
      · obtain ⟨pipe, disabled, reading, closed⟩ := (OutputTask.step_move stepped).closes_again new ends
        exact absurd closed (Bool.eq_false_iff.mp (unclosed.2 pipe disabled reading))
    · exact before.append ends
  · rw [grown]
    exact before.append fun shown => quiet shown.isOf_of_ends

/-! ## Tasks that end without an acknowledgement -/

omit [MessageReader ρ] in
theorem handleOutput_fails (output : Output) {selected : Selection ρ} (quiet : logOf selected.events = [])
    (fails : selected.fails = true) :
    ∃ before error, (handleOutput output selected).events = before ++ [.failed (.output output) error] ∧
      logOf before = [] := by
  obtain ⟨branch, pipe, disabled, rx', events⟩ := selected
  obtain _ | ⟨error | _ | bytes⟩ | _ := branch
  · cases fails
  · exact ⟨events, .io error, rfl, quiet⟩
  · cases fails
  · cases fails
  · have closed : pipe.closed = true := fails
    refine ⟨events ++ [.closeHandled output pipe.buffer], .closing output "EBADF", ?_, ?_⟩
    · simp [handleOutput, Pipe.close, closed, endOutput, ending]
    · rw [logOf_append, quiet]
      rfl

theorem Converses.not_closed {events : List Event} {tasks : Tasks} {pipe : Pipe} {disabled : Bool}
    (said : Converses events (.running tasks)) (reading : tasks.output output = .reading pipe disabled) :
    output.message .closed ∉ saidBy (.output output) (logOf events) := by
  obtain ⟨started, body, same, tasksSaid⟩ := said
  have streams := tasksSaid.output output
  rw [reading] at streams
  obtain ⟨datas, streams⟩ := streams
  rw [same, saidBy_started (fun equal => Task.noConfusion equal), streams]
  exact List.count_eq_zero.mp (count_streamed output datas)

theorem Shows.close_handled {events : List Event} (shown : Shows (Event.closes output) events) :
    ∃ first buffer rest, events = first ++ .closeHandled output buffer :: rest := by
  obtain ⟨event, member, closes⟩ := shown
  obtain ⟨first, rest, split⟩ := List.append_of_mem member
  cases event with
  | closeHandled other buffer =>
    cases (beq_iff_eq.mp closes : other = output)
    exact ⟨first, buffer, rest, split⟩
  | _ => cases closes

theorem strands_turn {u v : Agent ρ} (moved : u.step action = some v) (stranded : strands output u action = true) :
    ∃ tasks pipe disabled before error, u.phase = .running tasks ∧ tasks.output output = .reading pipe disabled ∧
      pipe.closed = true ∧ v.events = u.events ++ (before ++ [.failed (.output output) error]) ∧
      logOf before = [] := by
  unfold strands at stranded
  split at stranded
  · rename_i tasks other readFirst answered phase
    split at stranded
    · rename_i pipe disabled reading
      simp only [Bool.and_eq_true, beq_iff_eq] at stranded
      obtain ⟨⟨rfl, closed⟩, fails⟩ := stranded
      rw [← selectOutput_stale closed] at fails
      have selected := selectOutput_selected other tasks.lineBuffered pipe disabled u.rx readFirst answered
      obtain ⟨before, error, ends, quiet⟩ := handleOutput_fails other selected.overhears.quiet fails
      refine ⟨tasks, pipe, disabled, before, error, phase, reading, closed, ?_, quiet⟩
      simp only [Agent.step, phase, OutputTask.step, reading, Option.map_some, Option.some.injEq] at moved
      rw [← moved, ← ends]
      rfl
    all_goals cases stranded
  · cases stranded

theorem unacknowledged_of_strands {u v : Agent ρ} {later : List Event} (said : Converses u.events u.phase)
    (tracks : u.phase.Tracks output (Shows (Event.closes output) u.events)) (moved : u.step action = some v)
    (stranded : strands output u action = true) (grown : s.events = v.events ++ later) :
    ¬ Acknowledged output s.events := by
  intro acknowledged
  obtain ⟨tasks, pipe, disabled, before, error, phase, reading, closed, ends, quiet⟩ := strands_turn moved stranded
  rw [phase] at said tracks
  have handled : pipe.closed = true ↔ Shows (Event.closes output) u.events := by
    simpa only [Phase.Tracks, reading, OutputTask.Tracks] using tracks
  obtain ⟨first, buffer, rest, split⟩ := (handled.mp closed).close_handled
  have whole : s.events = first ++ .closeHandled output buffer ::
      ((rest ++ before) ++ .failed (.output output) error :: later) := by
    rw [grown, ends, split]
    simp
  obtain ⟨datas, closing, -⟩ := acknowledged first buffer _ _ later whole (beq_self_eq_true _)
  have tail : saidBy (.output output) (logOf (.closeHandled output buffer :: rest)) =
      streamed output datas ++ [output.message .closed] := by
    rw [← closing, logOf_append, quiet, List.append_nil]
    rfl
  refine said.not_closed reading ?_
  rw [split, logOf_append, saidBy_append, tail]
  exact List.mem_append_right _ (List.mem_append_right _ (List.mem_singleton_self _))

end

/-- In a run in which every message can be sent, host closes are acknowledged
just as long as no task that has closed its descriptor is told so by a read or
asked to close it again. -/
theorem close_acknowledged {ρ : Type} [MessageReader ρ] (output : Output) (reader : ρ) (actions : List Action)
    (s : Agent ρ) (run : execute Agent.step (.new reader) actions = some s)
    (sent : ¬ Shows Event.sendFails s.events) :
    Acknowledged output s.events ↔
      Throughout Agent.step (fun s action => strands output s action = false) (.new reader) actions := by
  constructor
  · intro acknowledged
    by_cases met : Throughout Agent.step (fun s action => strands output s action = false) (.new reader) actions
    · exact met
    · obtain ⟨first, action, rest, u, v, rfl, before, moved, after, strands⟩ := exists_of_not_throughout run met
      obtain ⟨later, grown⟩ := execute_grows after
      exact absurd acknowledged (unacknowledged_of_strands (converses_run before) (tracks_run before output) moved
        (Bool.not_eq_false _ ▸ strands) grown)
  · intro met
    -- A run that breaks the proviso on the way breaks it to its end.
    have holds := invariant_throughout
      (fun s : Agent ρ => s.phase.Tracks output (Shows (Event.closes output) s.events) ∧
        (Shows Event.sendFails s.events ∨ Unended output s.events))
      (fun s action t ⟨tracks, before⟩ calm moved => by
        have move := Agent.step_move moved
        refine ⟨move.tracks tracks, ?_⟩
        obtain ⟨more, grown⟩ := move.grows
        by_cases failed : Shows Event.sendFails t.events
        · exact .inl failed
        · refine .inr (move.unended calm tracks (before.resolve_left fun old => failed ?_) failed)
          exact grown ▸ (shows_append _ _).mpr (.inl old))
      ⟨tracks_new reader output, .inr (unended_of_unclosed shows_nil)⟩ met run
    exact (holds.2.resolve_left sent).acknowledged

/-- A child that has printed a line and a half when the host closes its output,
and goes on printing. -/
def interrupted : List Action :=
  [.receive, .spawn (.ok ⟨7, [.data ⟨[104, 105, 10, 121, 111], nofun⟩, .pending, .data ⟨[10], nofun⟩], []⟩), .start .sent,
    .output .stdout (.select true false), .output .stdout (.send .sent), .output .stdout (.select true false)]

def refusing : Connection := ⟨messageLines [.exec (request "cat"), .stdout .closed]⟩

/-- As long as the closed number is not answered for, the task only waits. -/
theorem close_acknowledged_unanswered :
    ∃ s : Agent Connection, Shows (Event.closes .stdout) s.events ∧ Acknowledged .stdout s.events := by
  have completes : (execute Agent.step (.new refusing) (interrupted ++ [.output .stdout (.select true false)])).map
      (fun s => (s.events.any (Event.closes .stdout), s.events.any Event.sendFails)) = some (true, false) := by
    decide +kernel
  have met : Throughout Agent.step (fun s action => strands .stdout s action = false) (.new refusing)
      (interrupted ++ [.output .stdout (.select true false)]) := by
    decide +kernel
  obtain ⟨s, run, shown⟩ := Option.map_eq_some_iff.mp completes
  obtain ⟨closed, sent⟩ := Prod.mk.inj shown
  have none : ¬ Shows Event.sendFails s.events := not_shows_of_any sent
  exact ⟨s, shows_of_any closed, (close_acknowledged .stdout _ _ s run none).mpr met⟩

def lost : List Action :=
  interrupted ++ [.output .stdout (.select true true), .stdin .recv, .stdin (.send .sent), .childExits 0,
    .exit (.select false (.ready (.ok 0))), .exit (.send .sent), .output .stderr (.select true false),
    .output .stderr (.send .sent), .join, .fail .sent, .close]

/-- An agent can end without having acknowledged a close, although it could send. -/
theorem close_unacknowledged :
    ∃ (s : Agent Connection) (status : Ending), execute Agent.step (.new refusing) lost = some s ∧
      s.phase = .done status ∧ ¬ Shows Event.sendFails s.events ∧ ¬ Acknowledged .stdout s.events := by
  have completes : (execute Agent.step (.new refusing) lost).map
      (fun s => (s.phase.status?.isSome, s.events.any Event.sendFails, s.events.take 5)) =
      some (true, false, [.spawned 7, .enqueued (.started ⟨7⟩), .enqueued (.stdout (.data [104, 105, 10])),
        .closeHandled .stdout [121, 111], .failed (.output .stdout) (.io badDescriptor)]) := by
    decide +kernel
  obtain ⟨s, run, ended⟩ := Option.map_eq_some_iff.mp completes
  obtain ⟨done, rest⟩ := Prod.mk.inj ended
  obtain ⟨sent, first⟩ := Prod.mk.inj rest
  obtain ⟨status, same⟩ := Option.isSome_iff_exists.mp done
  have none : ¬ Shows Event.sendFails s.events := not_shows_of_any sent
  refine ⟨s, status, run, Phase.status?_some same, none, fun acknowledged => ?_⟩
  have split : s.events = [.spawned 7, .enqueued (.started ⟨7⟩), .enqueued (.stdout (.data [104, 105, 10]))] ++
      .closeHandled .stdout [121, 111] :: ([] ++ .failed (.output .stdout) (.io badDescriptor) ::
        s.events.drop 5) := by
    rw [← List.take_append_drop 5 s.events, first]
    rfl
  obtain ⟨datas, said, -⟩ := acknowledged _ _ _ _ _ split rfl
  simp [saidBy] at said

end MinimalVm.Agent
