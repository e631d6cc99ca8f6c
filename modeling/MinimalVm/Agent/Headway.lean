import MinimalVm.Agent.Delivering
import MinimalVm.Io.Receive

/-! How much is left for an agent to do.

Every poll of a receiver reads something on or finds the end of the connection,
and every poll of a pipe that is answered takes something out of it. So each
part of the agent has something to do that leaves it with less, as long as the
child exits and what it waits for comes.
-/

set_option autoImplicit false

namespace MinimalVm.Agent

open MinimalVm.Semantics MinimalVm.Protocol MinimalVm.Io MinimalVm.Text

/-! ## Receiving -/

def Advances (ρ : Type) [MessageReader ρ] : Prop :=
  ∀ {r r' : ρ} {outcome : PollMessage}, MessageReader.pollReadMessage r = (outcome, r') →
    MessageReader.unread r' < MessageReader.unread r ∨
      outcome = .ready (.ok none) ∧ MessageReader.unread r' ≤ MessageReader.unread r

theorem connection_advances : Advances Connection := by
  rintro ⟨events⟩ r' outcome polled
  obtain _ | ⟨_ | error | item, events⟩ := events
  · cases polled
    exact .inr ⟨rfl, Nat.le_refl _⟩
  all_goals
    cases polled
    exact .inl (Nat.lt_succ_self _)

theorem msgReader_advances (parse : Bytes → Except ParseError Message) : Advances (MsgReader parse) :=
  fun polled => connection_advances (MsgReader.toConnection_polled polled)

section
variable {ρ : Type} [MessageReader ρ]

/-- What can still be received, whoever it is for. -/
def patience (rx : RxLocal ρ) : Nat := rx.msgs.queue.length + MessageReader.unread rx.reader

def Took (before after : Nat) {M : Type} (outcome : PollRecv M) : Prop :=
  after < before ∨ outcome = .ready (.ok none) ∧ after ≤ before

theorem Took.le {before after : Nat} {M : Type} {outcome : PollRecv M} (took : Took before after outcome) :
    after ≤ before := took.elim Nat.le_of_lt And.right

theorem readOn_patience {M : Type} [FromMessage M] (advances : Advances ρ) (rx : RxLocal ρ) :
    Took (patience rx) (patience (rx.readOn M).2) (rx.readOn M).1 := by
  fun_induction RxLocal.readOn M rx with
  | case1 rx reader polled | case2 rx error reader polled | case4 rx msg reader polled m converted =>
    refine .inl ?_
    have fewer := (advances polled).resolve_right (by simp)
    simp only [patience]
    omega
  | case3 rx reader polled =>
    refine .inr ⟨rfl, ?_⟩
    have none := (advances polled).elim Nat.le_of_lt And.right
    simp only [patience]
    omega
  | case5 rx msg reader polled back refused ih =>
    have fewer := (advances polled).resolve_right (by simp)
    have queued : patience ⟨reader, rx.msgs.push back⟩ ≤ patience rx := by
      simp only [patience, MsgBuffer.push, List.length_append, List.length_singleton]
      omega
    rcases ih with less | ⟨ended, kept⟩
    · exact .inl (Nat.lt_of_lt_of_le less queued)
    · exact .inr ⟨ended, Nat.le_trans kept queued⟩

theorem pollRecv_patience {M : Type} [FromMessage M] [LawfulFromMessage M] (advances : Advances ρ) (rx : RxLocal ρ) :
    Took (patience rx) (patience (rx.pollRecv M).2) (rx.pollRecv M).1 := by
  obtain ⟨reader, msgs⟩ := rx
  have popped := msgs.pop_popped (M := M)
  unfold RxLocal.pollRecv
  generalize msgs.pop M = result at popped
  cases popped with
  | absent refused => exact readOn_patience advances _
  | found refused converted =>
    refine .inl ?_
    simp only [patience, List.length_append, List.length_cons]
    omega

theorem output_pollRecv_patience (advances : Advances ρ) (output : Output) (rx : RxLocal ρ) :
    patience (output.pollRecv rx).2 ≤ patience rx := by
  cases output with
  | stdout => exact (pollRecv_patience (M := Stdout Stdio) advances rx).le
  | stderr => exact (pollRecv_patience (M := Stderr Stdio) advances rx).le

end

/-! ## Reading -/

/-- What can still be read from a pipe, and how often it makes one wait. -/
def Pipe.patience (this : Pipe) : Nat := this.buffer.length + (streamOf this.reads).length + this.reads.length

def Drained (before after : Nat) (outcome : PollOutput) : Prop :=
  after < before ∨ (∃ error, outcome = .ready (.error error)) ∨ outcome = .ready (.ok none)

theorem readLine_drained (reads : List ReadEvent) (buffer : Bytes) :
    Drained (buffer.length + (streamOf reads).length + reads.length)
      ((readLine reads buffer).2.2.length + (streamOf (readLine reads buffer).2.1).length +
        (readLine reads buffer).2.1.length) (readLine reads buffer).1 := by
  induction reads generalizing buffer with
  | nil =>
    unfold readLine
    split
    · rename_i pos found
      obtain ⟨inside, -⟩ := List.findIdx?_eq_some_iff_getElem.mp found
      refine .inl ?_
      simp only [List.length_drop]
      omega
    · by_cases none : buffer = []
      · exact .inr (.inr (by rw [if_pos none]))
      · have some := List.length_pos_iff.mpr none
        refine .inl ?_
        simp only [List.length_nil]
        omega
  | cons event reads ih =>
    unfold readLine
    split
    · rename_i pos found
      obtain ⟨inside, -⟩ := List.findIdx?_eq_some_iff_getElem.mp found
      refine .inl ?_
      simp only [List.length_drop]
      omega
    · cases event with
      | pending => exact .inl (Nat.lt_succ_self _)
      | failed error => exact .inr (.inl ⟨error, rfl⟩)
      | data chunk =>
        refine (ih (buffer ++ chunk.bytes)).imp_left fun fewer => ?_
        simp only [streamOf, List.length_append, List.length_cons] at fewer ⊢
        omega

theorem readChunk_drained (reads : List ReadEvent) (buffer : Bytes) :
    Drained (buffer.length + (streamOf reads).length + reads.length)
      ((readChunk reads buffer).2.2.length + (streamOf (readChunk reads buffer).2.1).length +
        (readChunk reads buffer).2.1.length) (readChunk reads buffer).1 := by
  cases reads with
  | nil =>
    by_cases none : buffer = []
    · exact .inr (.inr (by rw [readChunk, if_pos none]))
    · have some := List.length_pos_iff.mpr none
      refine .inl ?_
      simp only [readChunk, List.length_nil]
      omega
  | cons event reads =>
    cases event with
    | pending => exact .inl (Nat.lt_succ_self _)
    | failed error => exact .inr (.inl ⟨error, rfl⟩)
    | data chunk =>
      refine .inl ?_
      simp only [readChunk, streamOf, List.length_append, List.length_cons, List.length_nil]
      omega

theorem stale_drained (lineBuffered : Bool) (buffer : Bytes) :
    Drained buffer.length (readLineOrChunk lineBuffered [.failed badDescriptor] buffer).2.2.length
      (readLineOrChunk lineBuffered [.failed badDescriptor] buffer).1 := by
  cases lineBuffered with
  | false => exact .inr (.inl ⟨_, rfl⟩)
  | true =>
    rw [readLineOrChunk, if_pos rfl]
    unfold readLine
    split
    · rename_i pos found
      obtain ⟨inside, -⟩ := List.findIdx?_eq_some_iff_getElem.mp found
      refine .inl ?_
      simp only [List.length_drop]
      omega
    · exact .inr (.inl ⟨_, rfl⟩)

theorem Pipe.pollRead_drained (this : Pipe) (lineBuffered : Bool) :
    Drained this.patience (this.pollRead lineBuffered true).2.patience (this.pollRead lineBuffered true).1 := by
  unfold pollRead
  cases closed : this.closed with
  | true =>
    refine (stale_drained lineBuffered this.buffer).imp_left fun fewer => ?_
    simp only [patience, if_true]
    omega
  | false =>
    cases lineBuffered with
    | true => exact readLine_drained this.reads this.buffer
    | false => exact readChunk_drained this.reads this.buffer

/-- From here on nothing fails outside the agent, except that a read of a
descriptor number that the agent itself has closed is answered, with the error. -/
def Action.isFriendly : Action → Bool
  | .spawn outcome => outcome.isOk
  | .exit (.select _ (.ready (.error _))) | .stdin (.write (.ready (.error _))) => false
  | .stdin (.write (.ready (.ok n))) => n != 0
  -- Nothing in the agent sees to it that such a read is ever answered.
  | .output _ (.select _ answered) => answered
  | .receive | .start _ | .exit (.select _ .pending) | .exit (.select _ (.ready (.ok _))) | .exit (.send _)
  | .stdin .recv | .stdin (.write .pending) | .stdin (.send _) | .output _ (.send _) | .join | .fail _ | .close
  | .childExits _ => true

/-! ## What is left of a task -/

def ExitTask.left : ExitTask → Nat
  | .waiting _ => 2
  | .sending _ _ => 1
  | .ended _ => 0

def StdinTask.left (patience : Nat) : StdinTask → Nat
  | .receiving => 3 * patience + 2
  | .writing data => 3 * patience + if data = [] then 3 else 4
  | .sending _ => 1
  | .ended _ => 0

def OutputTask.left : OutputTask → Nat
  | .reading pipe _ => 2 * pipe.patience + 2
  | .sending pipe _ => 2 * pipe.patience + 3
  | .finishing _ => 1
  | .ended _ => 0

theorem StdinTask.left_mono (this : StdinTask) {fewer more : Nat} (le : fewer ≤ more) :
    this.left fewer ≤ this.left more := by
  cases this <;> simp only [left] <;> omega

section
variable {ρ : Type} [MessageReader ρ] {rx : RxLocal ρ}

theorem ExitTask.waits_on (process : Process) (rx : RxLocal ρ) (status : Int32) :
    ∃ turned, (ExitTask.waiting process).step rx (.select false (.ready (.ok status))) = some turned ∧
      turned.task.left < (ExitTask.waiting process).left ∧ turned.rx = rx := by
  obtain ⟨pid, child | result, locked⟩ := process
  · exact ⟨_, rfl, Nat.lt_succ_self 1, rfl⟩
  · obtain error | exited := result
    · exact ⟨_, rfl, Nat.succ_pos 1, rfl⟩
    · exact ⟨_, rfl, Nat.lt_succ_self 1, rfl⟩

theorem ExitTask.sends_on {task : ExitTask} {polled : SendPoll} {turned : Turn ExitTask ρ}
    (moved : task.step rx (.send polled) = some turned) (answered : polled.outcome ≠ .pending) :
    turned.task.left < task.left ∧ turned.rx = rx := by
  cases task with
  | sending process send =>
    cases polled with
    | pending takes => exact absurd rfl answered
    | failed takes error | sent =>
      cases moved
      exact ⟨Nat.succ_pos 0, rfl⟩
  | waiting process | ended result => cases moved

theorem StdinTask.receives_on (advances : Advances ρ) (rx : RxLocal ρ) :
    ∃ turned, StdinTask.receiving.step rx .recv = some turned ∧
      turned.task.left (patience turned.rx) < StdinTask.receiving.left (patience rx) ∧
      patience turned.rx ≤ patience rx := by
  have took := pollRecv_patience (M := Stdin (Option Bytes)) advances rx
  have kept := took.le
  refine ⟨_, rfl, ?_⟩
  generalize rx.pollRecv (Stdin (Option Bytes)) = received at took kept
  obtain ⟨outcome, rx'⟩ := received
  obtain _ | error | _ | ⟨_ | data⟩ := outcome
  · have fewer : patience rx' < patience rx := took.resolve_right (by simp)
    refine ⟨?_, kept⟩
    simp only [handleStdin, left]
    omega
  · exact ⟨Nat.succ_pos _, kept⟩
  · refine ⟨?_, kept⟩
    simp only [handleStdin, left]
    omega
  · refine ⟨?_, kept⟩
    simp only [handleStdin, left]
    omega
  · have fewer : patience rx' < patience rx := took.resolve_right (by simp)
    refine ⟨?_, kept⟩
    simp only [handleStdin, left]
    split <;> omega

theorem StdinTask.writes_on (data : Bytes) (rx : RxLocal ρ) :
    ∃ answer turned, (Action.stdin (.write answer)).isFriendly = true ∧
      (StdinTask.writing data).step rx (.write answer) = some turned ∧
      turned.task.left (patience turned.rx) < (StdinTask.writing data).left (patience rx) ∧ turned.rx = rx := by
  by_cases none : data = []
  · subst none
    exact ⟨.pending, _, rfl, rfl, Nat.lt_succ_self _, rfl⟩
  · have some : data.length ≠ 0 := fun empty => none (List.length_eq_zero_iff.mp empty)
    refine ⟨.ready (.ok data.length), ⟨.writing (data.drop data.length), rx, [.written (data.take data.length)]⟩,
      ?_, ?_, ?_, rfl⟩
    · simpa [Action.isFriendly] using some
    · simp only [step, writeStdin, none, some, if_false]
    · simp only [left, List.drop_length, none, if_true, if_false]
      omega

theorem StdinTask.sends_on {task : StdinTask} {polled : SendPoll} {turned : Turn StdinTask ρ}
    (moved : task.step rx (.send polled) = some turned) (answered : polled.outcome ≠ .pending) (p : Nat) :
    turned.task.left p < task.left p ∧ turned.rx = rx := by
  cases task with
  | sending send =>
    cases polled with
    | pending takes => exact absurd rfl answered
    | failed takes error | sent =>
      cases moved
      exact ⟨Nat.succ_pos 0, rfl⟩
  | receiving | writing data | ended result => cases moved

theorem selectClose_patience (advances : Advances ρ) (output : Output) (pipe : Pipe) (disabled : Bool)
    (rx : RxLocal ρ) : patience (selectClose output pipe disabled rx).rx ≤ patience rx := by
  have kept := output_pollRecv_patience advances output rx
  unfold selectClose
  split
  · exact Nat.le_refl _
  · split <;> (rename_i received; rw [received] at kept; exact kept)

theorem OutputTask.reads_on (advances : Advances ρ) (output : Output) (lineBuffered : Bool) (pipe : Pipe)
    (disabled : Bool) (rx : RxLocal ρ) :
    ∃ turned, (OutputTask.reading pipe disabled).step output lineBuffered rx (.select true true) = some turned ∧
      turned.task.left < (OutputTask.reading pipe disabled).left ∧ patience turned.rx ≤ patience rx := by
  have drained := pipe.pollRead_drained lineBuffered
  refine ⟨_, rfl, ?_⟩
  unfold selectOutput
  rw [if_pos rfl]
  generalize pipe.pollRead lineBuffered true = polled at drained
  obtain ⟨outcome, pipe'⟩ := polled
  obtain _ | error | _ | data := outcome
  · have fewer : pipe'.patience < pipe.patience := drained.resolve_right (by simp)
    have kept := selectClose_patience advances output pipe' disabled rx
    have received := selectClose_polled output pipe' disabled rx
    dsimp only
    generalize selectClose output pipe' disabled rx = selected at received kept
    refine ⟨?_, ?_⟩
    · cases received with
      | passed overhears =>
        simp only [handleOutput, left]
        omega
      | closes =>
        -- Closing takes nothing out of the pipe, and puts nothing back.
        simp only [handleOutput, Pipe.close]
        split
        · exact Nat.succ_pos _
        · rename_i closing
          split at closing
          · cases closing
          · cases closing
            show 2 * pipe'.patience + 2 < 2 * pipe.patience + 2
            omega
    · cases received with
      | passed overhears => exact kept
      | closes =>
        simp only [handleOutput]
        split <;> exact kept
  · exact ⟨Nat.succ_pos _, Nat.le_refl _⟩
  · refine ⟨?_, Nat.le_refl _⟩
    simp only [handleOutput, left]
    omega
  · have fewer : pipe'.patience < pipe.patience := drained.resolve_right (by simp)
    refine ⟨?_, Nat.le_refl _⟩
    simp only [handleOutput, left]
    omega

theorem OutputTask.sends_on {task : OutputTask} {output : Output} {lineBuffered : Bool} {polled : SendPoll}
    {turned : Turn OutputTask ρ} (moved : task.step output lineBuffered rx (.send polled) = some turned)
    (answered : polled.outcome ≠ .pending) : turned.task.left < task.left ∧ turned.rx = rx := by
  cases task with
  | sending pipe send =>
    cases polled with
    | pending takes => exact absurd rfl answered
    | failed takes error =>
      cases moved
      exact ⟨Nat.succ_pos _, rfl⟩
    | sent =>
      cases moved
      exact ⟨Nat.lt_succ_self _, rfl⟩
  | finishing send =>
    cases polled with
    | pending takes => exact absurd rfl answered
    | failed takes error | sent =>
      cases moved
      exact ⟨Nat.succ_pos 0, rfl⟩
  | reading pipe disabled | ended result => cases moved

end

/-! ## What is left of an agent -/

def Tasks.left (patience : Nat) (this : Tasks) : Nat :=
  this.exit.left + this.stdin.left patience + this.stdout.left + this.stderr.left

def ChildState.left : ChildState → Nat
  | .running _ => 1
  | .unborn | .exited _ _ => 0

def Phase.left (patience child : Nat) : Phase → Nat
  | .receiving => 3 * patience + 20
  | .spawning _ => 3 * patience + 19
  | .starting _ _ spawned _ =>
    3 * patience + 2 * (Pipe.new spawned.stdout).patience + 2 * (Pipe.new spawned.stderr).patience + 14
  | .running tasks => tasks.left patience + child + 2
  | .failing _ _ => 1
  | .closing _ | .done _ => 0

def workLeft {ρ : Type} [MessageReader ρ] (this : Agent ρ) : Nat := this.phase.left (patience this.rx) this.child.left

def Phase.HasChild (child : ChildState) : Phase → Prop
  | .starting _ _ _ _ | .running _ => child ≠ .unborn
  | .receiving | .spawning _ | .failing _ _ | .closing _ | .done _ => True

section
variable {ρ : Type} [MessageReader ρ] {s t : Agent ρ}

theorem AgentMove.hasChild {action : Action} (move : AgentMove s action t) (before : s.phase.HasChild s.child) :
    t.phase.HasChild t.child := by
  cases move with
  | receives rx phase => exact before
  | refuses | disconnected | requested | spawnFailed | startFailed | joined | joinFailed | reports | reported
  | reportFailed | closes => trivial
  | spawned child phase => exact ChildState.noConfusion
  | starts takes phase | started phase | exit turned phase | stdin turned phase | output turned phase =>
    rw [phase] at before
    exact before
  | childExits status alive =>
    rcases phase : s.phase <;> rw [phase] at before <;> first | trivial | exact ChildState.noConfusion

theorem Tasks.left_setOutput (this : Tasks) (task : OutputTask) (output : Output) (p : Nat) :
    (this.setOutput task output).left p + (this.output output).left = this.left p + task.left := by
  cases output <;> simp only [left, setOutput, Tasks.output] <;> omega

theorem left_output {tasks : Tasks} {task : OutputTask} {output : Output} {p p' : Nat}
    (less : task.left < (tasks.output output).left) (kept : p' ≤ p) :
    (tasks.setOutput task output).left p' < tasks.left p := by
  have turned := tasks.left_setOutput task output p'
  have stdin := tasks.stdin.left_mono kept
  have whole : tasks.left p' ≤ tasks.left p := by
    simp only [Tasks.left]
    omega
  omega

theorem sends_on {task : Task} {polled : SendPoll} {send : Send} (sends : s.phase.send? task = some send)
    (moved : s.step (s.phase.sendAction polled task) = some t) (answered : polled.outcome ≠ .pending) :
    workLeft t < workLeft s := by
  obtain ⟨rx, phase, child, events⟩ := s
  match phase, task, sends with
  | .starting lineBuffered process spawned _, .main, _ =>
    cases polled with
    | pending takes => exact absurd rfl answered
    | failed takes error =>
      cases moved
      show 1 < 3 * patience rx + _ + _ + 14
      omega
    | sent =>
      cases moved
      -- Starting weighs more than the tasks that it starts.
      have alive : child.left ≤ 1 := by cases child <;> simp [ChildState.left]
      show (Tasks.new lineBuffered process spawned).left (patience rx) + child.left + 2 < _
      simp only [workLeft, Phase.left, Tasks.left, Tasks.new, ExitTask.left, StdinTask.left, OutputTask.left]
      omega
  | .failing error _, .main, _ =>
    cases polled with
    | pending takes => exact absurd rfl answered
    | failed takes error | sent =>
      cases moved
      exact Nat.succ_pos 0
  | .running tasks, .exit, _ =>
    have allowed : child.allows (.send polled) = true := by cases child <;> rfl
    simp only [Agent.step, Phase.sendAction, allowed, if_true] at moved
    obtain ⟨after, stepped, rfl⟩ := Option.map_eq_some_iff.mp moved
    obtain ⟨less, same⟩ := ExitTask.sends_on stepped answered
    show Tasks.left (patience after.rx) { tasks with exit := after.task } + child.left + 2 < _
    simp only [workLeft, Phase.left, Tasks.left, same]
    omega
  | .running tasks, .stdin, _ =>
    obtain ⟨after, stepped, rfl⟩ := Option.map_eq_some_iff.mp moved
    obtain ⟨less, same⟩ := StdinTask.sends_on stepped answered (patience rx)
    show Tasks.left (patience after.rx) { tasks with stdin := after.task } + child.left + 2 < _
    simp only [workLeft, Phase.left, Tasks.left, same]
    omega
  | .running tasks, .output output, _ =>
    obtain ⟨after, stepped, rfl⟩ := Option.map_eq_some_iff.mp moved
    obtain ⟨less, same⟩ := OutputTask.sends_on stepped answered
    have fewer := left_output less (Nat.le_of_eq (congrArg patience same))
    exact Nat.add_lt_add_right (Nat.add_lt_add_right fewer child.left) 2

/-- Some part of the agent awaits a send, or has something else to do. -/
def Busy (s : Agent ρ) : Prop :=
  (∃ action t, action.isQuiet = true ∧ action.isFriendly = true ∧ s.step action = some t ∧ workLeft t < workLeft s) ∨
    ∃ task send, s.phase.send? task = some send

section
variable {rx : RxLocal ρ} {tasks : Tasks} {child : ChildState} {events : List Event}

theorem busy_exit (born : child ≠ .unborn) (goes : ∀ result, tasks.exit ≠ .ended result) :
    Busy ⟨rx, .running tasks, child, events⟩ := by
  obtain ⟨lineBuffered, exit, stdin, stdout, stderr⟩ := tasks
  cases exit with
  | ended result => exact absurd rfl (goes result)
  | sending process send => exact .inr ⟨.exit, send, rfl⟩
  | waiting process =>
    cases child with
    | unborn => exact absurd rfl born
    | running pid =>
      refine .inl ⟨.childExits 0, _, rfl, rfl, rfl, ?_⟩
      exact Nat.add_lt_add_right (Nat.lt_succ_self _) 2
    | exited pid status =>
      obtain ⟨after, stepped, less, same⟩ := ExitTask.waits_on process rx status
      have reported : (status == status) = true := beq_self_eq_true status
      refine .inl ⟨.exit (.select false (.ready (.ok status))), _, rfl, rfl,
        (if_pos reported).trans (congrArg (Option.map _) stepped), ?_⟩
      · show Tasks.left (patience after.rx) ⟨lineBuffered, after.task, stdin, stdout, stderr⟩ + 0 + 2 < _
        simp only [workLeft, Phase.left, Tasks.left, same]
        omega

theorem busy_stdin (advances : Advances ρ) (goes : ∀ result, tasks.stdin ≠ .ended result) :
    Busy ⟨rx, .running tasks, child, events⟩ := by
  obtain ⟨lineBuffered, exit, stdin, stdout, stderr⟩ := tasks
  cases stdin with
  | ended result => exact absurd rfl (goes result)
  | sending send => exact .inr ⟨.stdin, send, rfl⟩
  | receiving =>
    obtain ⟨after, stepped, less, kept⟩ := StdinTask.receives_on advances rx
    refine .inl ⟨.stdin .recv, _, rfl, rfl, congrArg (Option.map _) stepped, ?_⟩
    · show Tasks.left (patience after.rx) ⟨lineBuffered, exit, after.task, stdout, stderr⟩ + child.left + 2 < _
      simp only [workLeft, Phase.left, Tasks.left]
      omega
  | writing data =>
    obtain ⟨answer, after, friendly, stepped, less, same⟩ := StdinTask.writes_on data rx
    refine .inl ⟨.stdin (.write answer), _, rfl, friendly, congrArg (Option.map _) stepped, ?_⟩
    · show Tasks.left (patience after.rx) ⟨lineBuffered, exit, after.task, stdout, stderr⟩ + child.left + 2 < _
      simp only [workLeft, Phase.left, Tasks.left]
      omega

theorem busy_output (advances : Advances ρ) (output : Output)
    (goes : ∀ result, tasks.output output ≠ .ended result) : Busy ⟨rx, .running tasks, child, events⟩ := by
  cases stands : tasks.output output with
  | ended result => exact absurd stands (goes result)
  | sending pipe send | finishing send =>
    exact .inr ⟨.output output, send, (send?_running tasks _).trans (congrArg OutputTask.send? stands)⟩
  | reading pipe disabled =>
    obtain ⟨after, stepped, less, kept⟩ := OutputTask.reads_on advances output tasks.lineBuffered pipe disabled rx
    rw [← stands] at stepped less
    refine .inl ⟨.output output (.select true true), _, rfl, rfl, congrArg (Option.map _) stepped, ?_⟩
    · have fewer := left_output less kept
      exact Nat.add_lt_add_right (Nat.add_lt_add_right fewer child.left) 2

theorem busy_join {exit stdin stdout stderr : Ending} (exits : tasks.exit = .ended exit)
    (stdins : tasks.stdin = .ended stdin) (stdouts : tasks.stdout = .ended stdout)
    (stderrs : tasks.stderr = .ended stderr) :
    Busy ⟨rx, .running tasks, child, events⟩ := by
  have joined : tasks.join = some (exit *> stdin *> stdout *> stderr) := by
    simp only [Tasks.join, exits, stdins, stdouts, stderrs]
  refine .inl ⟨.join, _, rfl, rfl, congrArg (Option.map _) joined, ?_⟩
  obtain error | _ := exit *> stdin *> stdout *> stderr
  · exact Nat.lt_of_lt_of_le Nat.one_lt_two (Nat.le_add_left 2 _)
  · exact Nat.succ_pos _

theorem busy_running (advances : Advances ρ) (born : child ≠ .unborn) :
    Busy ⟨rx, .running tasks, child, events⟩ := by
  by_cases exits : ∃ result, tasks.exit = .ended result
  · by_cases stdins : ∃ result, tasks.stdin = .ended result
    · by_cases outputs : ∀ output, ∃ result, tasks.output output = .ended result
      · obtain ⟨exit, exits⟩ := exits
        obtain ⟨stdin, stdins⟩ := stdins
        obtain ⟨stdout, stdouts⟩ := outputs .stdout
        obtain ⟨stderr, stderrs⟩ := outputs .stderr
        exact busy_join exits stdins stdouts stderrs
      · obtain ⟨output, goes⟩ := not_forall.mp outputs
        exact busy_output advances output (not_exists.mp goes)
    · exact busy_stdin advances (not_exists.mp stdins)
  · exact busy_exit born (not_exists.mp exits)

end

theorem busy_receiving (advances : Advances ρ) (rx : RxLocal ρ) (child : ChildState) (events : List Event) :
    Busy ⟨rx, .receiving, child, events⟩ := by
  have took := pollRecv_patience (M := Exec) advances rx
  have kept := took.le
  refine .inl ⟨.receive, _, rfl, rfl, rfl, ?_⟩
  generalize rx.pollRecv Exec = received at took kept
  obtain ⟨outcome, rx'⟩ := received
  obtain _ | error | _ | exec := outcome
  · have fewer : patience rx' < patience rx := took.resolve_right (by simp)
    show 3 * patience rx' + 20 < 3 * patience rx + 20
    omega
  · show 1 < 3 * patience rx + 20
    omega
  · show 1 < 3 * patience rx + 20
    omega
  · show 3 * patience rx' + 19 < 3 * patience rx + 20
    dsimp only at kept
    omega

theorem busy_of_going (advances : Advances ρ) (parent : s.phase.HasChild s.child) (going : s.phase.isOver = false) :
    Busy s := by
  obtain ⟨rx, phase, child, events⟩ := s
  cases phase with
  | receiving => exact busy_receiving advances rx child events
  | spawning exec =>
    refine .inl ⟨.spawn (.ok ⟨0, [], []⟩), _, rfl, rfl, rfl, ?_⟩
    show 3 * patience rx + 2 * 0 + 2 * 0 + 14 < 3 * patience rx + 19
    omega
  | starting lineBuffered process spawned send | failing error send => exact .inr ⟨.main, send, rfl⟩
  | running tasks => exact busy_running advances parent
  | closing status | done status => cases going

end

end MinimalVm.Agent
