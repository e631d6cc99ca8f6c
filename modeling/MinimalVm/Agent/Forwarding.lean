import MinimalVm.Agent.Lines
import MinimalVm.Agent.Mail
import MinimalVm.Agent.Splitting
import MinimalVm.Io.LineParser

/-! The output of the child on its way to the host.

As long as the host says nothing about a stream, its task does nothing but
read the pipe: it makes one call after another and enqueues what they return,
in order, until the end of file.
-/

set_option autoImplicit false

namespace MinimalVm.Agent

open MinimalVm.Semantics MinimalVm.Protocol MinimalVm.Io MinimalVm.Text

def SpawnedChild.pipe (this : SpawnedChild) : Output → List ReadEvent
  | .stdout => this.stdout
  | .stderr => this.stderr

structure Pipe.At (pipe : Pipe) (calls : Calls) : Prop where
  opened : pipe.closed = false
  reads : pipe.reads = calls.reads
  buffer : pipe.buffer = calls.buffer

/-- Calls that the reads of a pipe can come to. -/
abbrev Called (lineBuffered : Bool) (reads : List ReadEvent) (calls : Calls) : Prop :=
  Reaches (Calls.step lineBuffered) (.new reads) calls

section
variable {lineBuffered : Bool} {reads : List ReadEvent} {calls : Calls}

theorem Called.poll (called : Called lineBuffered reads calls) :
    Called lineBuffered reads (calls.poll lineBuffered) := by
  have polls : Reaches (Calls.step lineBuffered) calls (calls.poll lineBuffered) :=
    .after (show calls.step lineBuffered .poll = some _ from rfl) (.refl _ _)
  exact called.trans polls

theorem Called.splitting (called : Called lineBuffered reads calls) (steady : Steady reads) :
    Splitting lineBuffered (streamOf reads) calls :=
  called.elim fun _ run => splitting_run steady run

/-- What a poll of a call comes to for the calls and their pipe. -/
inductive PipePolled (lineBuffered : Bool) (calls : Calls) : PollOutput × Pipe → Prop
  | waits {pipe : Pipe} : pipe.At (calls.poll lineBuffered) →
      (calls.poll lineBuffered).returned = calls.returned → PipePolled lineBuffered calls (.pending, pipe)
  | returns {pipe : Pipe} {payload : Bytes} : pipe.At (calls.poll lineBuffered) →
      (calls.poll lineBuffered).returned = calls.returned ++ [.ok (some payload)] →
      PipePolled lineBuffered calls (.ready (.ok (some payload)), pipe)
  | ends {pipe : Pipe} : (calls.poll lineBuffered).returned = calls.returned ++ [.ok none] →
      PipePolled lineBuffered calls (.ready (.ok none), pipe)

theorem Pipe.At.polled {pipe : Pipe} (at_ : pipe.At calls) (called : Called lineBuffered reads calls)
    (steady : Steady reads) (answered : Bool) :
    PipePolled lineBuffered calls (pipe.pollRead lineBuffered answered) := by
  have splitting := called.splitting steady
  have polled : Polled lineBuffered calls.reads calls.buffer _ := readLineOrChunk_polled _ splitting.steady
  have same := splitting.poll_eq
  unfold Pipe.pollRead
  rw [if_neg (by simp [at_.opened]), at_.reads, at_.buffer]
  generalize readLineOrChunk lineBuffered calls.reads calls.buffer = result at polled same
  cases polled with
  | waits more left kept free => exact .waits ⟨at_.opened, by rw [same], by rw [same]⟩ (by rw [same])
  | returns left nonempty split cut => exact .returns ⟨at_.opened, by rw [same], by rw [same]⟩ (by rw [same])
  | ends done empty => exact .ends (by rw [same])

end

/-! ## A selection without a close -/

section
variable {ρ : Type} [MessageReader ρ] {output : Output} {rx : RxLocal ρ}

theorem selectClose_open (pipe : Pipe) (disabled : Bool)
    (quiet : (output.pollRecv rx).1 ≠ .ready (.ok (some .closed))) :
    (selectClose output pipe disabled rx).branch = .none ∧ (selectClose output pipe disabled rx).pipe = pipe := by
  unfold selectClose
  split
  · exact ⟨rfl, rfl⟩
  · generalize output.pollRecv rx = result at quiet
    obtain ⟨_ | error | _ | bytes | ⟨⟨⟩⟩, rx'⟩ := result
    · exact ⟨rfl, rfl⟩
    · exact ⟨rfl, rfl⟩
    · exact ⟨rfl, rfl⟩
    · exact ⟨rfl, rfl⟩
    · exact absurd rfl quiet

def readBranch : PollOutput → Branch
  | .pending => .none
  | .ready read => .data read

theorem selectOutput_reads (lineBuffered : Bool) (pipe : Pipe) (disabled readFirst answered : Bool)
    (quiet : (output.pollRecv rx).1 ≠ .ready (.ok (some .closed))) :
    let selected := selectOutput output lineBuffered pipe disabled rx readFirst answered
    let polled := pipe.pollRead lineBuffered answered
    selected.branch = readBranch polled.1 ∧ selected.pipe = polled.2 := by
  unfold selectOutput
  generalize pipe.pollRead lineBuffered answered = polled
  obtain ⟨_ | read, pipe'⟩ := polled
  · cases readFirst with
    | true => exact selectClose_open pipe' disabled quiet
    | false =>
      rw [if_neg Bool.false_ne_true]
      simp only [(selectClose_open pipe disabled quiet).1]
      exact ⟨rfl, trivial⟩
  · cases readFirst with
    | true => exact ⟨rfl, rfl⟩
    | false =>
      rw [if_neg Bool.false_ne_true]
      simp only [(selectClose_open pipe disabled quiet).1]
      exact ⟨rfl, trivial⟩

end

/-! ## The task -/

/-- A task has enqueued what its calls have returned, but for what it holds. -/
def OutputTask.Forwards (output : Output) (lineBuffered : Bool) (reads : List ReadEvent) :
    OutputTask → List Message → Prop
  | .reading pipe _, said => ∃ calls, Called lineBuffered reads calls ∧ pipe.At calls ∧
      .ok none ∉ calls.returned ∧ said = streamed output calls.payloads
  | .sending pipe send, said => ∃ calls payloads payload, Called lineBuffered reads calls ∧ pipe.At calls ∧
      .ok none ∉ calls.returned ∧ calls.payloads = payloads ++ [payload] ∧
      send.msg = output.message (.data payload) ∧ said = streamed output payloads ++ send.enqueued
  | .finishing send, said => ∃ calls, Called lineBuffered reads calls ∧ .ok none ∈ calls.returned ∧
      send.msg = output.message .closed ∧ said = streamed output calls.payloads ++ send.enqueued
  | .ended _, said => ∃ calls, Called lineBuffered reads calls ∧ .ok none ∈ calls.returned ∧
      said = streamed output calls.payloads ++ [output.message .closed]

/-- What is said about a stream is what its calls have returned so far, and the
stream is closed once they have returned `None`. -/
structure Forwarded (output : Output) (calls : Calls) (said : List Message) : Prop where
  begins : said <+: streamed output calls.payloads ++ [output.message .closed]
  closed : output.message .closed ∈ said → .ok none ∈ calls.returned ∧
    said = streamed output calls.payloads ++ [output.message .closed]

section
variable {ρ : Type} [MessageReader ρ] {output : Output} {rx : RxLocal ρ} {lineBuffered : Bool}
  {reads : List ReadEvent} {said : List Message}

theorem Splitting.going {stream : Bytes} {calls : Calls} (splitting : Splitting lineBuffered stream calls)
    (going : .ok none ∉ calls.returned) : calls.returned = calls.payloads.map (.ok ∘ some) := by
  obtain ⟨n, returned, -⟩ := splitting.returned
  cases n with
  | zero => exact returned.trans (List.append_nil _)
  | succ n => exact absurd (by rw [returned]; simp) going

theorem reading_forwards {pipe : Pipe} {disabled readFirst answered : Bool} (steady : Steady reads)
    (quiet : (output.pollRecv rx).1 ≠ .ready (.ok (some .closed)))
    (before : OutputTask.Forwards output lineBuffered reads (.reading pipe disabled) said) :
    let turned := handleOutput output (selectOutput output lineBuffered pipe disabled rx readFirst answered)
    turned.task.Forwards output lineBuffered reads (said ++ logOf turned.events) := by
  obtain ⟨calls, called, at_, going, same⟩ := before
  have next := called.poll
  have silent := (selectOutput_selected output lineBuffered pipe disabled rx readFirst answered).overhears.quiet
  obtain ⟨branch, pipe'⟩ := selectOutput_reads lineBuffered pipe disabled readFirst answered quiet
  have polled : PipePolled lineBuffered calls _ := at_.polled called steady answered
  have returned := (called.splitting steady).going going
  generalize selectOutput output lineBuffered pipe disabled rx readFirst answered = selected at silent branch pipe'
  generalize pipe.pollRead lineBuffered answered = result at polled branch pipe'
  obtain ⟨branch', pipe'', disabled', rx', events⟩ := selected
  cases branch
  cases pipe'
  cases polled with
  | waits stands kept =>
    have payloads : (calls.poll lineBuffered).payloads = calls.payloads := congrArg payloadsOf kept
    show ∃ calls, _ ∧ _ ∧ _ ∧ said ++ logOf events = _
    refine ⟨_, next, stands, kept ▸ going, ?_⟩
    rw [silent, payloads, List.append_nil, same]
  | @returns pipe' payload stands more =>
    have payloads : (calls.poll lineBuffered).payloads = calls.payloads ++ [payload] :=
      (congrArg payloadsOf more).trans (payloadsOf_more returned payload)
    show ∃ calls payloads payload, _ ∧ _ ∧ _ ∧ _ ∧ _ ∧ said ++ logOf events = _
    refine ⟨_, calls.payloads, payload, next, stands, ?_, payloads, rfl, ?_⟩
    · rw [more]
      simp [going]
    · rw [silent, List.append_nil, same]
      exact (List.append_nil _).symm
  | ends last =>
    have payloads : (calls.poll lineBuffered).payloads = calls.payloads := by
      refine (congrArg payloadsOf last).trans (payloadsOf_last (n := 0) ?_)
      exact returned.trans (List.append_nil _).symm
    show ∃ calls, _ ∧ _ ∧ _ ∧ said ++ logOf events = _
    refine ⟨_, next, last ▸ List.mem_append_right _ (List.mem_singleton_self _), rfl, ?_⟩
    rw [silent, payloads, List.append_nil, same]
    exact (List.append_nil _).symm

theorem OutputTask.step_forwards {task : OutputTask} {turn : OutputTurn} {turned : Turn OutputTask ρ}
    (moved : task.step output lineBuffered rx turn = some turned) (steady : Steady reads)
    (quiet : (output.pollRecv rx).1 ≠ .ready (.ok (some .closed))) (sent : ¬ Shows Event.sendFails turned.events)
    (before : task.Forwards output lineBuffered reads said) :
    turned.task.Forwards output lineBuffered reads (said ++ logOf turned.events) := by
  cases OutputTask.step_turned moved with
  | select pipe disabled readFirst answered => exact reading_forwards steady quiet before
  | sends pipe send takes =>
    obtain ⟨calls, payloads, payload, called, stands, going, split, carries, rfl⟩ := before
    refine ⟨calls, payloads, payload, called, stands, going, split, carries, ?_⟩
    rw [logOf_send, List.append_assoc, ← Send.poll_enqueued]
  | sendFailed pipe send takes error =>
    exact absurd (sendFails_failed send takes error _) sent
  | sent pipe send =>
    obtain ⟨calls, payloads, payload, called, stands, going, split, carries, rfl⟩ := before
    refine ⟨calls, called, stands, going, ?_⟩
    rw [logOf_send, List.append_assoc, send.sent_enqueued, carries, split, streamed_snoc]
  | finishes send takes =>
    obtain ⟨calls, called, eof, closes, rfl⟩ := before
    refine ⟨calls, called, eof, closes, ?_⟩
    rw [logOf_send, List.append_assoc, ← Send.poll_enqueued]
  | finishFailed send takes error =>
    exact absurd (sendFails_failed send takes error _) sent
  | finished send =>
    obtain ⟨calls, called, eof, closes, rfl⟩ := before
    refine ⟨calls, called, eof, ?_⟩
    show _ ++ logOf (send.events .sent ++ [.finished (.output output)]) = _
    rw [logOf_append, logOf_send, logOf_finished, logOf_nil, List.append_nil, List.append_assoc,
      send.sent_enqueued, closes]

omit [MessageReader ρ] in
theorem OutputTask.Forwards.forwarded {task : OutputTask} (before : task.Forwards output lineBuffered reads said) :
    ∃ calls, Called lineBuffered reads calls ∧ Forwarded output calls said := by
  have notStreamed (payloads : List Bytes) : output.message .closed ∉ streamed output payloads :=
    List.count_eq_zero.mp (count_streamed output payloads)
  cases task with
  | reading pipe disabled =>
    obtain ⟨calls, called, stands, going, rfl⟩ := before
    exact ⟨calls, called, List.prefix_append _ _, fun closed => absurd closed (notStreamed _)⟩
  | sending pipe send =>
    obtain ⟨calls, payloads, payload, called, stands, going, split, carries, rfl⟩ := before
    have part : streamed output payloads ++ send.enqueued <+: streamed output calls.payloads := by
      rw [split, streamed_snoc, ← carries]
      rcases send.enqueued_cases with none | whole
      · exact ⟨[send.msg], by rw [none, List.append_nil]⟩
      · exact ⟨[], by rw [whole, List.append_nil]⟩
    refine ⟨calls, called, part.trans (List.prefix_append _ _), fun closed => ?_⟩
    exact absurd (part.subset closed) (notStreamed _)
  | finishing send =>
    obtain ⟨calls, called, eof, closes, rfl⟩ := before
    rcases send.enqueued_cases with none | whole
    · rw [none, List.append_nil]
      exact ⟨calls, called, List.prefix_append _ _, fun closed => absurd closed (notStreamed _)⟩
    · rw [whole, closes]
      exact ⟨calls, called, List.prefix_refl _, fun _ => ⟨eof, rfl⟩⟩
  | ended result =>
    obtain ⟨calls, called, eof, rfl⟩ := before
    exact ⟨calls, called, List.prefix_refl _, fun _ => ⟨eof, rfl⟩⟩

end

/-! ## The agent -/

def Phase.Forwards (output : Output) (lineBuffered : Bool) (reads : List ReadEvent) (said : List Message) :
    Phase → Prop
  | .receiving | .spawning _ => False
  | .starting mode _ child _ => mode = lineBuffered ∧ child.pipe output = reads ∧ said = []
  | .running tasks => tasks.lineBuffered = lineBuffered ∧
      (tasks.output output).Forwards output lineBuffered reads said
  | .failing _ _ | .closing _ | .done _ => ∃ calls, Called lineBuffered reads calls ∧ Forwarded output calls said

section
variable {output : Output} {lineBuffered : Bool} {reads : List ReadEvent} {said : List Message}

theorem Phase.Forwards.forwarded {phase : Phase} (before : phase.Forwards output lineBuffered reads said) :
    ∃ calls, Called lineBuffered reads calls ∧ Forwarded output calls said := by
  cases phase with
  | receiving => exact before.elim
  | spawning exec => exact before.elim
  | starting mode process child send =>
    obtain ⟨-, -, rfl⟩ := before
    exact ⟨.new reads, .refl _ _, List.nil_prefix, nofun⟩
  | running tasks => exact before.2.forwarded
  | failing error send => exact before
  | closing status => exact before
  | done status => exact before

theorem AgentMove.forwards_beside {ρ : Type} [MessageReader ρ] {s t : Agent ρ} {action : Action}
    (move : AgentMove s action t) (other : action.task ≠ .output output)
    (before : s.phase.Forwards output lineBuffered reads said) :
    t.phase.Forwards output lineBuffered reads said := by
  have forwarded := before.forwarded
  cases move with
  | receives rx phase => exact before
  | childExits status alive => exact before
  | requested rx exec phase =>
    rw [phase] at before
    exact before.elim
  | spawned child phase =>
    rw [phase] at before
    exact before.elim
  | starts takes phase =>
    rw [phase] at before
    exact before
  | @started mode process child send phase =>
    rw [phase] at before
    obtain ⟨same, pipe, rfl⟩ := before
    have starts : (Tasks.new mode process child).output output = .reading (.new (child.pipe output)) false := by
      cases output <;> rfl
    refine ⟨same, ?_⟩
    rw [starts, pipe]
    exact ⟨.new reads, .refl _ _, ⟨rfl, rfl, rfl⟩, nofun, rfl⟩
  | exit turned phase allowed stepped =>
    rw [phase] at before
    cases output <;> exact before
  | stdin turned phase stepped =>
    rw [phase] at before
    cases output <;> exact before
  | @output tasks speaks turn turned phase stepped =>
    rw [phase] at before
    have apart : speaks ≠ output := fun same => other (congrArg Task.output same)
    obtain ⟨same, forwards⟩ := before
    refine ⟨?_, ?_⟩
    · cases speaks <;> exact same
    · rw [Tasks.setOutput_other _ _ apart]
      exact forwards
  | refuses | disconnected | spawnFailed | startFailed => exact forwarded
  | joined | joinFailed | reports | reported | reportFailed | closes => exact forwarded

theorem quiet_of_mail {s : Agent Connection} (empty : s.mail (.output output) = []) :
    (output.pollRecv s.rx).1 ≠ .ready (.ok (some .closed)) := by
  have taken := s.rx.pollRecv_mail (M := (Task.output output).receiver.Carrier)
  rw [show mail (Task.output output).receiver.Carrier s.rx.messages = [] from empty] at taken
  have nothing := (List.append_eq_nil_iff.mp taken.symm).1
  cases output with
  | stdout =>
    unfold Output.pollRecv
    dsimp only
    generalize s.rx.pollRecv (Stdout Stdio) = result at nothing
    obtain ⟨_ | error | _ | msg, rx'⟩ := result
    · nofun
    · nofun
    · nofun
    · cases nothing
  | stderr =>
    unfold Output.pollRecv
    dsimp only
    generalize s.rx.pollRecv (Stderr Stdio) = result at nothing
    obtain ⟨_ | error | _ | msg, rx'⟩ := result
    · nofun
    · nofun
    · nofun
    · cases nothing

theorem step_mail_empty {s t : Agent Connection} {action : Action} (moved : s.step action = some t) {task : Task}
    (empty : s.mail task = []) : t.mail task = [] := by
  by_cases own : action.task = task
  · subst own
    rcases Agent.step_polled moved with same | polled
    · rw [Agent.mail, same]
      exact empty
    · have taken := s.rx.pollRecv_mail (M := action.task.receiver.Carrier)
      rw [show mail action.task.receiver.Carrier s.rx.messages = [] from empty] at taken
      rw [Agent.mail, polled]
      exact (List.append_eq_nil_iff.mp taken.symm).2
  · rw [Agent.step_mail moved own]
    exact empty

structure Forwarding (output : Output) (lineBuffered : Bool) (reads : List ReadEvent) (s : Agent Connection) :
    Prop where
  said : Converses s.events s.phase
  quiet : s.mail (.output output) = []
  forwards : Shows Event.sendFails s.events ∨
    s.phase.Forwards output lineBuffered reads (saidBy (.output output) s.log)

theorem Forwarding.step {s t : Agent Connection} {action : Action} (steady : Steady reads)
    (before : Forwarding output lineBuffered reads s) (moved : s.step action = some t) :
    Forwarding output lineBuffered reads t := by
  have move := Agent.step_move moved
  obtain ⟨more, grown, doneBy⟩ := move.doneBy before.said
  refine ⟨move.converses before.said, step_mail_empty moved before.quiet, ?_⟩
  by_cases failed : Shows Event.sendFails t.events
  · exact .inl failed
  rw [grown, shows_append, not_or] at failed
  have forwards := before.forwards.resolve_left failed.1
  right
  have log : t.log = s.log ++ logOf more := (congrArg logOf grown).trans (logOf_append _ _)
  rw [log, saidBy_append]
  by_cases own : action.task = .output output
  · have ours : saidBy (.output output) (logOf more) = logOf more := saidBy_own (own ▸ doneBy.spoken)
    rw [ours]
    cases move with
    | @output tasks speaks turn turned phase stepped =>
      cases (Task.output.inj own : speaks = output)
      have same : more = turned.events := (List.append_cancel_left grown).symm
      subst same
      rw [phase] at forwards
      obtain ⟨mode, forwards⟩ := forwards
      subst mode
      show _ ∧ ((tasks.setOutput turned.task output).output output).Forwards _ _ _ _
      rw [Tasks.setOutput_self]
      refine ⟨?_, OutputTask.step_forwards stepped steady (quiet_of_mail before.quiet) failed.2 forwards⟩
      cases output <;> rfl
    | _ => cases own
  · rw [saidBy_other doneBy.spoken own, List.append_nil]
    exact move.forwards_beside own forwards

theorem Forwarding.start {s : Agent Connection} {exec : Exec} {child : SpawnedChild}
    (said : Converses s.events s.phase) (phase : s.phase = .spawning exec) (quiet : s.mail (.output output) = [])
    (mode : exec.lineBufferedIo.getD true = lineBuffered) (pipe : child.pipe output = reads) :
    Forwarding output lineBuffered reads (s.handleSpawn exec (.ok child)) := by
  refine ⟨(AgentMove.spawned child phase).converses said, quiet, .inr ⟨mode, pipe, ?_⟩⟩
  rw [phase] at said
  have log : (s.handleSpawn exec (.ok child)).log = [] :=
    (logOf_append s.events [.spawned child.pid]).trans ((List.append_nil _).trans said)
  rw [log]
  rfl

end

theorem addressee_output {msg : Message} {output : Output} (speaks : addressee msg = some (.output output)) :
    ∃ stdio, msg = output.message stdio := by
  cases msg with
  | stdout stdio =>
    cases speaks
    exact ⟨stdio, rfl⟩
  | stderr stdio =>
    cases speaks
    exact ⟨stdio, rfl⟩
  | _ => cases speaks

/-- The payloads that calls return, and those that are forwarded, are pieces of
the child's output that make it up, and by lines just its lines. -/
theorem output_splitting (lineBuffered : Bool) (reads : List ReadEvent) (steady : Steady reads) :
    (∀ steps calls, execute (Calls.step lineBuffered) (.new reads) steps = some calls →
      Split lineBuffered (streamOf reads) calls) ∧
    ∀ (parse : Bytes → Except ParseError Message) (reader : List ReadEvent) (output : Output)
      (before after : List Action) (exec : Exec) (child : SpawnedChild) (u s : Agent (MsgReader parse)),
      execute Agent.step (.new (.new reader)) before = some u → u.phase = .spawning exec →
      exec.lineBufferedIo.getD true = lineBuffered → child.pipe output = reads →
      execute Agent.step u (.spawn (.ok child) :: after) = some s →
      (∀ stdio, output.message stdio ∉ wellFormed ((segments newline (streamOf reader)).map parse)) →
      ¬ Shows Event.sendFails s.events →
      ∃ steps calls, execute (Calls.step lineBuffered) (.new reads) steps = some calls ∧
        Forwarded output calls (saidBy (.output output) s.log) := by
  refine ⟨fun steps calls run => (splitting_run steady run).split, ?_⟩
  intro parse reader output before after exec child u s first phase mode pipe rest untold sent
  let start : Agent (MsgReader parse) := .new (.new reader)
  have overLines : execute Agent.step start.toLines before = some u.toLines := by
    rw [Agent.execute_toLines, first]
    rfl
  -- The host never speaks of the stream, so its mail is empty all along.
  have empty : start.toLines.mail (.output output) = [] := by
    show mail _ (RxLocal.new (.new reader : MsgReader parse)).toLines.messages = []
    rw [RxLocal.messages_new, mail_eq_nil]
    intro msg member
    rw [accepts_addressee]
    refine decide_eq_false fun speaks => ?_
    obtain ⟨stdio, rfl⟩ := addressee_output speaks
    exact untold stdio member
  have quiet : u.toLines.mail (.output output) = [] :=
    invariant_execute (fun s : Agent Connection => s.mail (.output output) = [])
      (fun _ _ _ before moved => step_mail_empty moved before) empty overLines
  obtain ⟨v, spawned, later⟩ := execute_cons.mp rest
  have starts : v.toLines = u.toLines.handleSpawn exec (.ok child) := by
    simp only [Agent.step, phase, Option.some.injEq] at spawned
    subst spawned
    rfl
  -- From the spawn on the task is followed by calls on its own pipe.
  have begins : Forwarding output lineBuffered reads v.toLines := by
    rw [starts]
    exact .start (converses_run overLines) phase quiet mode pipe
  have onwards : execute Agent.step v.toLines after = some s.toLines := by
    rw [Agent.execute_toLines, later]
    rfl
  have ends := invariant_execute (Forwarding output lineBuffered reads) (fun _ _ _ before moved => before.step steady moved)
    begins onwards
  obtain ⟨calls, ⟨steps, run⟩, forwarded⟩ := (ends.forwards.resolve_left sent).forwarded
  exact ⟨steps, calls, run, forwarded⟩

def lines : List ReadEvent :=
  [.data ⟨[104, 105, 10, 121], nofun⟩, .pending, .data ⟨[111, 10, 33], nofun⟩]

def polling : List CallStep := [.poll, .poll, .drop, .poll, .poll, .poll]

def Phase.exec? : Phase → Option Exec
  | .spawning exec => some exec
  | _ => none

theorem Phase.exec?_some {phase : Phase} {exec : Exec} (spawning : phase.exec? = some exec) :
    phase = .spawning exec := by
  cases phase with
  | spawning other => exact congrArg Phase.spawning (Option.some.inj spawning)
  | _ => cases spawning

def forwarding : List Action :=
  [.start .sent, .output .stdout (.select true false), .output .stdout (.send .sent),
    .output .stdout (.select false false), .output .stdout (.select true false), .output .stdout (.send (.pending true)),
    .output .stdout (.send .sent), .output .stdout (.select false false), .output .stdout (.send .sent),
    .output .stdout (.select true false), .output .stdout (.send .sent)]

def watching : List ReadEvent := [.data ⟨frame (Message.text (.exec (request "cat"))), frame_nonempty _⟩]

theorem output_splitting_lines :
    let parse := parseWith (knownText [.exec (request "cat")])
    (∃ calls : Calls, calls.payloads = [[104, 105, 10], [121, 111, 10], [33]] ∧ Split true (streamOf lines) calls) ∧
      ∃ (s : Agent (MsgReader parse)) (steps : List CallStep) (calls : Calls), s.log.length = 5 ∧
        execute (Calls.step true) (.new lines) steps = some calls ∧
        Forwarded .stdout calls (saidBy (.output .stdout) s.log) := by
  intro parse
  have steady : Steady lines := by simp [Steady, lines]
  constructor
  · have completes : (execute (Calls.step true) (.new lines) polling).map Calls.payloads =
        some [[104, 105, 10], [121, 111, 10], [33]] := by decide +kernel
    obtain ⟨calls, run, payloads⟩ := Option.map_eq_some_iff.mp completes
    exact ⟨calls, payloads, (output_splitting true lines steady).1 polling calls run⟩
  · let start : Agent (MsgReader parse) := .new (.new watching)
    have received : (execute Agent.step start [.receive]).map (fun s => s.phase.exec?) = some (some (request "cat")) := by
      decide +kernel
    obtain ⟨u, first, phase⟩ := Option.map_eq_some_iff.mp received
    have completes : (execute Agent.step start ([.receive] ++ .spawn (.ok ⟨7, lines, []⟩) :: forwarding)).map
        (fun s => (s.log.length, s.events.any Event.sendFails)) = some (5, false) := by
      decide +kernel
    obtain ⟨s, run, shown⟩ := Option.map_eq_some_iff.mp completes
    obtain ⟨length, calm⟩ := Prod.mk.inj shown
    obtain ⟨v, same, rest⟩ := execute_append.mp run
    cases first.symm.trans same
    have sent : ¬ Shows Event.sendFails s.events := not_shows_of_any calm
    have untold : ∀ stdio, Output.stdout.message stdio ∉
        wellFormed ((segments newline (streamOf watching)).map parse) := by
      have carries : wellFormed ((segments newline (streamOf watching)).map parse) = [.exec (request "cat")] := by
        decide +kernel
      rw [carries]
      simp [Output.message]
    obtain ⟨steps, calls, called, forwarded⟩ := (output_splitting true lines steady).2 parse watching .stdout [.receive]
      forwarding (request "cat") ⟨7, lines, []⟩ u s first (Phase.exec?_some phase) rfl rfl rest untold sent
    exact ⟨s, steps, calls, length, called, forwarded⟩

end MinimalVm.Agent
