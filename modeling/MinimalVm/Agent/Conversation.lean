import MinimalVm.Agent.Speech
import MinimalVm.Semantics.Trace

/-! The shape of every conversation the agent holds.

The main part speaks before the tasks start, and once more after they have all
ended if one of them failed. Between the two the tasks speak in turns, each in
its own way.
-/

set_option autoImplicit false

namespace MinimalVm.Agent

open MinimalVm.Semantics MinimalVm.Protocol MinimalVm.Io

def Spoken (log : List Message) : Prop :=
  log = [] ∨ ∃ started body, log = .started started :: body ∧ Body Shape body

/-- Some event says that the error could not be sent. -/
def Unreported (events : List Event) : Prop :=
  ∃ error cause, .sendFailed (.error error) cause ∈ events

def Concluded (events : List Event) : Ending → Prop
  | .ok () => ∃ started body, logOf events = .started started :: body ∧ Body Whole body
  | .error error => ∃ spoken, Spoken spoken ∧ (logOf events = spoken ++ [.error ⟨error.message⟩] ∨
      logOf events = spoken ∧ Unreported events)

/-- What has been said in each phase. -/
def Converses (events : List Event) : Phase → Prop
  | .receiving | .spawning _ => logOf events = []
  | .starting _ _ child send => send.msg = .started ⟨child.pid⟩ ∧ logOf events = send.enqueued
  | .running tasks => ∃ started body, logOf events = .started started :: body ∧ tasks.Said body
  | .failing error send => send.msg = .error ⟨error.message⟩ ∧
      ∃ spoken, Spoken spoken ∧ logOf events = spoken ++ send.enqueued
  | .closing status | .done status => Concluded events status

section
variable {ρ : Type} {s : Agent ρ}

theorem Spoken.failWith {more : List Event} (error : AgentError)
    (spoken : Spoken (logOf s.events ++ logOf more)) :
    Converses (s.failWith error more).events (s.failWith error more).phase :=
  ⟨rfl, logOf s.events ++ logOf more, spoken, (logOf_append _ _).trans (List.append_nil _).symm⟩

theorem Spoken.start (send : Send) {started : Started} (starts : send.msg = .started started) :
    Spoken send.enqueued := by
  rcases send.enqueued_cases with none | whole
  · exact .inl none
  · refine .inr ⟨started, [], starts ▸ whole, fun task => ?_, nofun⟩
    cases task with
    | main => trivial
    | exit => exact .inl rfl
    | stdin => exact .inl rfl
    | output output => exact ⟨[], .inl rfl⟩

theorem Spoken.whole {started : Started} {body : List Message} (whole : Body Whole body) :
    Spoken (.started started :: body) :=
  .inr ⟨started, body, rfl, fun task => (whole.each task).shape, whole.onlyTasks⟩

theorem Concluded.append_quiet {events more : List Event} {status : Ending}
    (before : Concluded events status) (quiet : logOf more = []) : Concluded (events ++ more) status := by
  have same : logOf (events ++ more) = logOf events := by rw [logOf_append, quiet, List.append_nil]
  obtain error | _ := status
  · obtain ⟨spoken, shape, ends⟩ := before
    refine ⟨spoken, shape, ?_⟩
    rw [same]
    exact ends.imp_right fun ⟨said, error, cause, failed⟩ =>
      ⟨said, error, cause, List.mem_append_left more failed⟩
  · unfold Concluded
    rw [same]
    exact before

theorem Converses.append_quiet {events more : List Event} {phase : Phase} (before : Converses events phase)
    (quiet : logOf more = []) : Converses (events ++ more) phase := by
  have same : logOf (events ++ more) = logOf events := by rw [logOf_append, quiet, List.append_nil]
  cases phase with
  | closing status => exact Concluded.append_quiet before quiet
  | done status => exact Concluded.append_quiet before quiet
  | receiving | spawning exec | starting lineBuffered process child send | running tasks
  | failing error send =>
    unfold Converses
    rw [same]
    exact before

end

theorem Concluded.reported {events : List Event} {error : AgentError} {send : Send} (polled : SendPoll)
    (before : Converses events (.failing error send)) (ended : polled.outcome ≠ .pending) :
    Concluded (events ++ send.events polled) (.error error) := by
  obtain ⟨reports, spoken, shape, said⟩ := before
  refine ⟨spoken, shape, ?_⟩
  rw [logOf_append, logOf_send, said, List.append_assoc, ← Send.poll_enqueued]
  -- Either the report is out or the poll that ended it has failed.
  rcases (send.poll polled).enqueued_cases with none | whole
  · right
    refine ⟨by rw [none, List.append_nil], ?_⟩
    cases polled with
    | pending takes => exact absurd rfl ended
    | failed takes cause =>
      refine ⟨⟨error.message⟩, cause, List.mem_append_right _ (List.mem_append_right _ ?_)⟩
      exact reports ▸ List.mem_singleton_self _
    | sent =>
      have sent := send.sent_enqueued
      rw [← Send.poll_enqueued, none] at sent
      cases sent
  · left
    rw [whole, Send.poll_msg, reports]

theorem AgentMove.converses {ρ : Type} [MessageReader ρ] {s t : Agent ρ} {action : Action}
    (move : AgentMove s action t) (before : Converses s.events s.phase) : Converses t.events t.phase := by
  cases move with
  | receives rx phase => exact before
  -- Before the child is started nothing has been said.
  | refuses rx error phase =>
    rw [phase] at before
    apply Spoken.failWith
    rw [logOf_malformed, List.append_nil]
    exact .inl before
  | disconnected rx phase =>
    rw [phase] at before
    apply Spoken.failWith
    rw [logOf_nil, List.append_nil]
    exact .inl before
  | requested rx exec phase =>
    rw [phase] at before
    exact (show Converses s.events (.spawning exec) from before).append_quiet rfl
  | spawnFailed debug phase =>
    rw [phase] at before
    apply Spoken.failWith
    rw [logOf_nil, List.append_nil]
    exact .inl before
  | spawned child phase =>
    rw [phase] at before
    exact ⟨rfl, (logOf_append _ _).trans ((List.append_nil _).trans before)⟩
  | @starts lineBuffered process child send takes phase =>
    rw [phase] at before
    obtain ⟨starts, said⟩ := before
    refine ⟨starts, ?_⟩
    rw [Send.poll_enqueued, ← said, ← logOf_send]
    exact logOf_append _ _
  | @started lineBuffered process child send phase =>
    rw [phase] at before
    obtain ⟨starts, said⟩ := before
    refine ⟨⟨child.pid⟩, [], ?_, .new lineBuffered process child⟩
    rw [← starts, ← Send.sent_enqueued, ← said, ← logOf_send]
    exact logOf_append _ _
  | @startFailed lineBuffered process child send takes error phase =>
    rw [phase] at before
    obtain ⟨starts, said⟩ := before
    apply Spoken.failWith
    rw [logOf_append, logOf_send, logOf_signalled, List.append_nil, said, ← Send.poll_enqueued]
    exact .start _ starts
  -- A turn adds what its own task says to what all of them have said.
  | @exit tasks turn turned phase allowed stepped =>
    rw [phase] at before
    obtain ⟨started, body, said, tasksSaid⟩ := before
    refine ⟨started, body ++ logOf turned.events, ?_, tasksSaid.exit_turn (ExitTask.step_move stepped)⟩
    rw [← List.cons_append, ← said]
    exact logOf_append _ _
  | @stdin tasks turn turned phase stepped =>
    rw [phase] at before
    obtain ⟨started, body, said, tasksSaid⟩ := before
    refine ⟨started, body ++ logOf turned.events, ?_, tasksSaid.stdin_turn (StdinTask.step_move stepped)⟩
    rw [← List.cons_append, ← said]
    exact logOf_append _ _
  | @output tasks output turn turned phase stepped =>
    rw [phase] at before
    obtain ⟨started, body, said, tasksSaid⟩ := before
    refine ⟨started, body ++ logOf turned.events, ?_, tasksSaid.output_turn (OutputTask.step_move stepped)⟩
    rw [← List.cons_append, ← said]
    exact logOf_append _ _
  | @joined tasks phase all =>
    rw [phase] at before
    obtain ⟨started, body, said, tasksSaid⟩ := before
    exact ⟨started, body, (logOf_append _ _).trans ((List.append_nil _).trans said), tasksSaid.joined all⟩
  | @joinFailed tasks error phase some =>
    rw [phase] at before
    obtain ⟨started, body, said, tasksSaid⟩ := before
    apply Spoken.failWith
    rw [logOf_nil, List.append_nil]
    exact .inr ⟨started, body, said, tasksSaid.shapes⟩
  | @reports error send takes phase =>
    rw [phase] at before
    obtain ⟨reports, spoken, shape, said⟩ := before
    refine ⟨reports, spoken, shape, ?_⟩
    rw [Send.poll_enqueued, ← List.append_assoc, ← said, ← logOf_send]
    exact logOf_append _ _
  -- The error message is the last thing said, whether or not it could be sent.
  | reported phase =>
    rw [phase] at before
    exact Concluded.reported .sent before nofun
  | reportFailed takes cause phase =>
    rw [phase] at before
    exact Concluded.reported (.failed takes cause) before nofun
  | @closes status phase =>
    rw [phase] at before
    exact Concluded.append_quiet before rfl
  | childExits status alive => exact before.append_quiet rfl

/-! ## The shape of the messages -/

/-- The messages of a run, at any time. -/
structure Shaped (log : List Message) : Prop where
  first : ∀ msg, log.head? = some msg → (∃ started, msg = .started started) ∨ ∃ error, msg = .error error
  startedFirst : ∀ before started after, log = before ++ .started started :: after → before = []
  afterStarted : ∀ before msg after task, log = before ++ msg :: after → speaker msg = some task →
    task ≠ .main → ∃ started, .started started ∈ before
  streams : ∀ output, ∃ datas, saidBy (.output output) log = streamed output datas ∨
    saidBy (.output output) log = streamed output datas ++ [output.message .closed]
  stdinOnce : log.count (.stdin .closed) ≤ 1
  exitedOnce : (saidBy .exit log).length ≤ 1
  errorLast : ∀ before error after, log = before ++ .error error :: after →
    after = [] ∧ ∀ other, .error other ∉ before

/-- Everything a host waits for has been said once. -/
structure Complete (log : List Message) : Prop where
  stdin : log.count (.stdin .closed) = 1
  output : ∀ output : Output, log.count (output.message .closed) = 1
  exited : ∃ exited, saidBy .exit log = [.exited exited]

theorem count_saidBy {msg : Message} {task : Task} (speaks : speaker msg = some task) (log : List Message) :
    log.count msg = (saidBy task log).count msg := by
  exact (List.count_filter (p := fun other => speaker other = some task) (decide_eq_true speaks)).symm

theorem count_streamed (output : Output) (datas : List Bytes) :
    (streamed output datas).count (output.message .closed) = 0 := by
  rw [List.count_eq_zero, streamed]
  intro member
  obtain ⟨bytes, -, same⟩ := List.mem_map.mp member
  cases output <;> cases same

theorem Body.task_message {said : Task → List Message → Prop} {body : List Message} (shape : Body said body)
    {msg : Message} (main : speaker msg = some .main) : msg ∉ body := fun member => by
  obtain ⟨task, apart, speaks⟩ := shape.onlyTasks msg member
  exact apart (Option.some.inj (speaks.symm.trans main))

theorem Spoken.no_error {log : List Message} (spoken : Spoken log) (error : Error) : .error error ∉ log := by
  rcases spoken with rfl | ⟨started, body, rfl, shape⟩
  · exact List.not_mem_nil
  · intro member
    rcases List.mem_cons.mp member with same | later
    · cases same
    · exact shape.task_message rfl later

theorem saidBy_started {task : Task} (apart : task ≠ .main) (started : Started) (log : List Message) :
    saidBy task (.started started :: log) = saidBy task log := by
  have single : SpokenBy .main [.started started] := fun other member => List.mem_singleton.mp member ▸ rfl
  exact (saidBy_append task [.started started] log).trans (by rw [saidBy_other single apart.symm, List.nil_append])

theorem saidBy_error {task : Task} (apart : task ≠ .main) (error : Error) (log : List Message) :
    saidBy task (log ++ [.error error]) = saidBy task log := by
  have single : SpokenBy .main [.error error] := fun other member => List.mem_singleton.mp member ▸ rfl
  rw [saidBy_append, saidBy_other single apart.symm, List.append_nil]

theorem Spoken.shapes {log : List Message} (spoken : Spoken log) (task : Task) (apart : task ≠ .main) :
    Shape task (saidBy task log) := by
  rcases spoken with rfl | ⟨started, body, rfl, shape⟩
  · cases task with
    | main => trivial
    | exit => exact .inl rfl
    | stdin => exact .inl rfl
    | output output => exact ⟨[], .inl rfl⟩
  · rw [saidBy_started apart]
    exact shape.each task

theorem Converses.spoken {events : List Event} {phase : Phase} (said : Converses events phase) :
    ∃ spoken, Spoken spoken ∧ (logOf events = spoken ∨ ∃ error, logOf events = spoken ++ [.error error]) := by
  cases phase with
  | receiving | spawning exec => exact ⟨_, .inl said, .inl rfl⟩
  | starting lineBuffered process child send =>
    obtain ⟨starts, same⟩ := said
    exact ⟨_, .start send starts, .inl same⟩
  | running tasks =>
    obtain ⟨started, body, same, tasksSaid⟩ := said
    exact ⟨_, .inr ⟨started, body, rfl, tasksSaid.shapes⟩, .inl same⟩
  | failing error send =>
    obtain ⟨reports, spoken, shape, same⟩ := said
    refine ⟨spoken, shape, ?_⟩
    rw [same]
    rcases send.enqueued_cases with none | whole
    · exact .inl (by rw [none, List.append_nil])
    · exact .inr ⟨_, by rw [whole, reports]⟩
  | closing status | done status =>
    obtain error | _ := status
    · obtain ⟨spoken, shape, ends⟩ := said
      exact ⟨spoken, shape, ends.symm.imp And.left fun whole => ⟨_, whole⟩⟩
    · obtain ⟨started, body, same, whole⟩ := said
      exact ⟨_, .whole whole, .inl same⟩

theorem shaped_of_shapes {log : List Message} (shapes : ∀ task, task ≠ .main → Shape task (saidBy task log)) :
    (∀ output, ∃ datas, saidBy (.output output) log = streamed output datas ∨
      saidBy (.output output) log = streamed output datas ++ [output.message .closed]) ∧
    log.count (.stdin .closed) ≤ 1 ∧ (saidBy .exit log).length ≤ 1 := by
  refine ⟨fun output => shapes (.output output) nofun, ?_, ?_⟩
  · rw [count_saidBy (show speaker (.stdin .closed) = some .stdin from rfl)]
    rcases shapes .stdin nofun with said | said <;> rw [said] <;> decide
  · rcases shapes .exit nofun with said | ⟨exited, said⟩ <;> rw [said] <;> simp

theorem Spoken.head {log more : List Message} (spoken : Spoken log) (errors : ∀ msg ∈ more, ∃ error, msg = .error error)
    {msg : Message} (first : (log ++ more).head? = some msg) :
    (∃ started, msg = .started started) ∨ ∃ error, msg = .error error := by
  rcases spoken with rfl | ⟨started, body, rfl, shape⟩
  · exact .inr (errors msg (List.mem_of_mem_head? first))
  · exact .inl ⟨started, (Option.some.inj first).symm⟩

theorem Spoken.after {log more before after : List Message} {msg : Message} {task : Task} (spoken : Spoken log)
    (errors : ∀ msg ∈ more, ∃ error, msg = .error error) (split : log ++ more = before ++ msg :: after)
    (speaks : speaker msg = some task) (apart : task ≠ .main) : ∃ started, .started started ∈ before := by
  rcases spoken with rfl | ⟨started, body, rfl, shape⟩
  · rw [List.nil_append] at split
    obtain ⟨error, rfl⟩ := errors msg (by simp [split])
    exact absurd (Option.some.inj speaks).symm apart
  · rcases List.cons_eq_append_iff.mp split with ⟨rfl, same⟩ | ⟨middle, rfl, -⟩
    · cases same
      exact absurd (Option.some.inj speaks).symm apart
    · exact ⟨started, List.mem_cons_self⟩

theorem Spoken.started_first {log more before after : List Message} {started : Started} (spoken : Spoken log)
    (errors : ∀ msg ∈ more, ∃ error, msg = .error error)
    (split : log ++ more = before ++ .started started :: after) : before = [] := by
  have notError : .started started ∉ more := fun member => by
    obtain ⟨error, same⟩ := errors _ member
    cases same
  rcases spoken with rfl | ⟨other, body, rfl, shape⟩
  · rw [List.nil_append] at split
    exact absurd (by simp [split]) notError
  · rcases List.cons_eq_append_iff.mp split with ⟨rfl, -⟩ | ⟨middle, rfl, same⟩
    · rfl
    · have member : .started started ∈ body ++ more := by
        have here : .started started ∈ middle ++ .started started :: after := by simp
        exact (show body ++ more = _ from same) ▸ here
      rcases List.mem_append.mp member with inBody | inMore
      · exact absurd inBody (shape.task_message rfl)
      · exact absurd inMore notError

theorem Converses.shaped {events : List Event} {phase : Phase} (said : Converses events phase) :
    Shaped (logOf events) := by
  obtain ⟨spoken, shape, ends⟩ := said.spoken
  -- The two cases differ in the report alone, which is no task's.
  rcases ends with same | ⟨error, same⟩
  · have none : ∀ msg ∈ ([] : List Message), ∃ error, msg = .error error := nofun
    have whole : logOf events = spoken ++ [] := same.trans (List.append_nil _).symm
    obtain ⟨streams, stdinOnce, exitedOnce⟩ := shaped_of_shapes fun task apart => same ▸ shape.shapes task apart
    refine ⟨fun msg first => ?_, fun before started after split => ?_, fun before msg after task split => ?_,
      streams, stdinOnce, exitedOnce, fun before error after split => ?_⟩
    · exact shape.head none (whole ▸ first)
    · exact shape.started_first none (whole ▸ split)
    · exact shape.after none (whole ▸ split)
    · exact absurd (by simp [← same, split]) (shape.no_error error)
  · have one : ∀ msg ∈ [Message.error error], ∃ error, msg = .error error := fun msg member =>
      ⟨error, List.mem_singleton.mp member⟩
    obtain ⟨streams, stdinOnce, exitedOnce⟩ := shaped_of_shapes fun task apart =>
      (same ▸ saidBy_error apart error spoken : saidBy task (logOf events) = _) ▸ shape.shapes task apart
    refine ⟨fun msg first => ?_, fun before started after split => ?_, fun before msg after task split => ?_,
      streams, stdinOnce, exitedOnce, fun before other after split => ?_⟩
    · exact shape.head one (same ▸ first)
    · exact shape.started_first one (same ▸ split)
    · exact shape.after one (same ▸ split)
    · rcases occurrence_append (same.symm.trans split) with ⟨middle, earlier, -⟩ | ⟨middle, rfl, last⟩
      · exact absurd (by simp [earlier]) (shape.no_error other)
      · rcases List.cons_eq_append_iff.mp last with ⟨rfl, tail⟩ | ⟨_, -, impossible⟩
        · exact ⟨(List.cons.inj tail).2, fun error => by simpa using shape.no_error error⟩
        · simp at impossible

theorem Body.complete {started : Started} {body : List Message} (whole : Body Whole body) :
    Complete (.started started :: body) where
  stdin := by
    rw [count_saidBy (show speaker (.stdin .closed) = some .stdin from rfl),
      saidBy_started (fun same => Task.noConfusion same), whole.each .stdin]
    decide
  output output := by
    obtain ⟨datas, said⟩ := whole.each (.output output)
    rw [count_saidBy (speaker_output output .closed), saidBy_started (fun same => Task.noConfusion same), said,
      List.count_append, count_streamed, List.count_singleton_self]
  exited := by
    obtain ⟨exited, said⟩ := whole.each .exit
    exact ⟨exited, by rw [saidBy_started (fun same => Task.noConfusion same), said]⟩

theorem Concluded.complete {events : List Event} {status : Ending} (said : Concluded events status)
    (none : ∀ error, .error error ∉ logOf events) (sent : ¬ Unreported events) : Complete (logOf events) := by
  obtain error | _ := status
  · obtain ⟨spoken, shape, same | ⟨-, unreported⟩⟩ := said
    · exact absurd (by simp [same]) (none ⟨error.message⟩)
    · exact absurd unreported sent
  · obtain ⟨started, body, same, whole⟩ := said
    exact same ▸ whole.complete

/-! ## Every run -/

theorem converses_new {ρ : Type} (reader : ρ) :
    Converses (Agent.new reader).events (Agent.new reader).phase := logOf_nil

theorem converses_run {ρ : Type} [MessageReader ρ] {reader : ρ} {actions : List Action} {s : Agent ρ}
    (run : execute Agent.step (.new reader) actions = some s) : Converses s.events s.phase :=
  invariant_execute (fun s : Agent ρ => Converses s.events s.phase)
    (fun _ _ _ before moved => (Agent.step_move moved).converses before) (converses_new reader) run

/-- The messages of every run have their shape at any time. An agent that ends
has said everything, unless it has reported an error or failed to report it. -/
theorem conversation_shape {ρ : Type} [MessageReader ρ] (reader : ρ) (actions : List Action) (s : Agent ρ)
    (run : execute Agent.step (.new reader) actions = some s) :
    Shaped s.log ∧ ∀ status, s.phase = .done status → (∀ error, .error error ∉ s.log) →
      ¬ Unreported s.events → Complete s.log := by
  have said := converses_run run
  refine ⟨said.shaped, fun status ended none sent => ?_⟩
  rw [ended] at said
  exact Concluded.complete said none sent

def request (prog : String) : Exec := ⟨prog, [], none, none, none⟩

def printing : List Action :=
  [.receive, .spawn (.ok ⟨7, [.data ⟨[104, 105, 10], nofun⟩], []⟩), .start .sent, .stdin .recv,
    .stdin (.send .sent), .output .stdout (.select true false), .output .stdout (.send .sent),
    .output .stderr (.select false false), .output .stderr (.send (.pending true)), .childExits 0,
    .exit (.select false (.ready (.ok 0))), .exit (.send .sent), .output .stderr (.send .sent),
    .output .stdout (.select true false), .output .stdout (.send .sent), .join, .close]

theorem conversation_shape_printing :
    ∃ s : Agent Connection, s.log.length = 6 ∧
      Shaped s.log ∧ ∀ status, s.phase = .done status → (∀ error, .error error ∉ s.log) →
        ¬ Unreported s.events → Complete s.log := by
  have completes : (execute Agent.step (.new (⟨messageLines [.exec (request "echo")]⟩ : Connection)) printing).map
      (fun s => s.log.length) = some 6 := by decide +kernel
  obtain ⟨s, run, length⟩ := Option.map_eq_some_iff.mp completes
  exact ⟨s, length, conversation_shape _ printing s run⟩

/-- The host wants no more output and then disconnects. The last line of output
is still on its way out when the closed descriptor is read again, so that the
attempt to report this error is the first to notice the disconnection. -/
def overlooked : List Action :=
  [.receive, .spawn (.ok ⟨7, [.data ⟨[104, 105, 10], nofun⟩], []⟩), .start .sent, .childExits 0,
    .exit (.select false (.ready (.ok 0))), .exit (.send .sent), .stdin .recv, .stdin (.send .sent),
    .output .stderr (.select true false), .output .stderr (.send .sent), .output .stdout (.select true false),
    .output .stdout (.send .sent), .output .stdout (.select false false), .output .stdout (.select true true),
    .join, .fail (.failed false (.flush ⟨"Broken pipe (os error 32)"⟩)), .close]

/-- An agent can end without an error message and without having said all. -/
theorem conversation_overlooked :
    ∃ (s : Agent Connection) (status : Ending),
      execute Agent.step (.new ⟨messageLines [.exec (request "echo"), .stdout .closed]⟩) overlooked = some s ∧
        s.phase = .done status ∧ (∀ error, .error error ∉ s.log) ∧ ¬ Complete s.log := by
  have completes : (execute Agent.step (.new (⟨messageLines [.exec (request "echo"), .stdout .closed]⟩ : Connection))
      overlooked).map (fun s => (s.phase.status?.isSome, s.log)) =
      some (true, [.started ⟨7⟩, .exited ⟨0⟩, .stdin .closed, .stderr .closed, .stdout (.data [104, 105, 10])]) := by
    decide +kernel
  obtain ⟨s, run, ended⟩ := Option.map_eq_some_iff.mp completes
  obtain ⟨done, said⟩ := Prod.mk.inj ended
  obtain ⟨status, same⟩ := Option.isSome_iff_exists.mp done
  refine ⟨s, status, run, Phase.status?_some same, fun error member => ?_, fun complete => ?_⟩
  · simp [said] at member
  · have closed := complete.output .stdout
    rw [said] at closed
    exact absurd closed (by decide)

end MinimalVm.Agent
