import MinimalVm.Agent.Moves

/-! What each task has said to the host.

Each message belongs to the part of the agent that sends it. What a task has
said is determined by its state up to the data, and the turns of the others
cannot disturb it.
-/

set_option autoImplicit false

namespace MinimalVm.Agent

open MinimalVm.Semantics MinimalVm.Protocol MinimalVm.Io

/-! ## What a task has said -/

def speaker : Message → Option Task
  | .started _ | .error _ => some .main
  | .exited _ => some .exit
  | .stdin _ => some .stdin
  | .stdout _ => some (.output .stdout)
  | .stderr _ => some (.output .stderr)
  | .exec _ | .kill _ | .noOp => none

@[simp] theorem speaker_output (output : Output) (stdio : Stdio) :
    speaker (output.message stdio) = some (.output output) := by cases output <;> rfl

def saidBy (task : Task) (log : List Message) : List Message :=
  log.filter fun msg => speaker msg = some task

def SpokenBy (task : Task) (msgs : List Message) : Prop := ∀ msg ∈ msgs, speaker msg = some task

theorem spokenBy_nil (task : Task) : SpokenBy task [] := by simp [SpokenBy]

theorem saidBy_append (task : Task) (first rest : List Message) :
    saidBy task (first ++ rest) = saidBy task first ++ saidBy task rest := List.filter_append ..

theorem saidBy_own {task : Task} {msgs : List Message} (own : SpokenBy task msgs) :
    saidBy task msgs = msgs := by
  rw [saidBy, List.filter_eq_self]
  intro msg member
  exact decide_eq_true (own msg member)

theorem saidBy_other {task other : Task} {msgs : List Message} (own : SpokenBy task msgs)
    (apart : task ≠ other) : saidBy other msgs = [] := by
  rw [saidBy, List.filter_eq_nil_iff]
  intro msg member
  have speaks := own msg member
  simp [speaks, apart]

/-! ## The messages among events -/

@[simp] theorem logOf_nil : logOf [] = [] := rfl

@[simp] theorem logOf_append (first rest : List Event) : logOf (first ++ rest) = logOf first ++ logOf rest :=
  List.filterMap_append

@[simp] theorem logOf_enqueued (msgs : List Message) : logOf (msgs.map .enqueued) = msgs := by
  rw [logOf, List.filterMap_map]
  exact List.filterMap_some

@[simp] theorem logOf_signalled (signals : List Signal) : logOf (signals.map .signalled) = [] := by
  simp [logOf, Event.message?]

@[simp] theorem logOf_malformed (task : Task) (error : RecvError) : logOf (malformed task error) = [] := by
  cases error <;> rfl

@[simp] theorem logOf_failed (task : Task) (error : AgentError) (rest : List Event) :
    logOf (.failed task error :: rest) = logOf rest := rfl

@[simp] theorem logOf_finished (task : Task) (rest : List Event) :
    logOf (.finished task :: rest) = logOf rest := rfl

@[simp] theorem logOf_send (send : Send) (polled : SendPoll) :
    logOf (send.events polled) = send.newly polled := by
  rw [Send.events, logOf_append, logOf_enqueued]
  cases polled <;> exact List.append_nil _

theorem Overhears.quiet {ρ : Type} [MessageReader ρ] {output : Output} {rx : RxLocal ρ} {events : List Event}
    (overhears : Overhears output rx events) : logOf events = [] := by
  cases overhears <;> rfl

theorem newly_spokenBy {send : Send} {task : Task} (own : speaker send.msg = some task) (polled : SendPoll) :
    SpokenBy task (send.newly polled) := by
  unfold Send.newly
  split
  · intro msg member
    exact List.mem_singleton.mp member ▸ own
  · exact spokenBy_nil task

/-! ## Tasks -/

/-- A task that says one thing has said so far what it has enqueued. -/
def ExitTask.Said : ExitTask → List Message → Prop
  | .waiting _, said => said = []
  | .sending _ send, said => (∃ exited, send.msg = .exited exited) ∧ said = send.enqueued
  | .ended (.ok ()), said => ∃ exited, said = [.exited exited]
  | .ended (.error _), said => said = [] ∨ ∃ exited, said = [.exited exited]

def StdinTask.Said : StdinTask → List Message → Prop
  | .receiving, said | .writing _, said => said = []
  | .sending send, said => send.msg = .stdin .closed ∧ said = send.enqueued
  | .ended (.ok ()), said => said = [.stdin .closed]
  | .ended (.error _), said => said = [] ∨ said = [.stdin .closed]

/-- The data messages of a stream. -/
def streamed (output : Output) (datas : List Bytes) : List Message :=
  datas.map fun bytes => output.message (.data bytes)

@[simp] theorem streamed_snoc (output : Output) (datas : List Bytes) (bytes : Bytes) :
    streamed output (datas ++ [bytes]) = streamed output datas ++ [output.message (.data bytes)] :=
  List.map_append

def OutputTask.Said (output : Output) : OutputTask → List Message → Prop
  | .reading _ _, said => ∃ datas, said = streamed output datas
  | .sending _ send, said => ∃ datas bytes, send.msg = output.message (.data bytes) ∧
      said = streamed output datas ++ send.enqueued
  | .finishing send, said => ∃ datas, send.msg = output.message .closed ∧
      said = streamed output datas ++ send.enqueued
  | .ended (.ok ()), said => ∃ datas, said = streamed output datas ++ [output.message .closed]
  | .ended (.error _), said => ∃ datas, said = streamed output datas ∨
      said = streamed output datas ++ [output.message .closed]

theorem ExitMove.said {ρ : Type} [MessageReader ρ] {rx : RxLocal ρ} {task task' : ExitTask} {turn : ExitTurn}
    {events : List Event} {said : List Message} (move : ExitMove rx task turn events task')
    (before : task.Said said) :
    task'.Said (said ++ logOf events) ∧ SpokenBy .exit (logOf events) := by
  cases move with
  | waits signals kept =>
    rw [logOf_signalled, List.append_nil]
    exact ⟨before, spokenBy_nil _⟩
  | recvFailed error kept =>
    simp only [logOf_append, logOf_malformed, logOf_failed, logOf_signalled, List.append_nil]
    exact ⟨.inl before, spokenBy_nil _⟩
  | waitFailed error signals polls answered =>
    rw [logOf_failed, logOf_signalled, List.append_nil]
    exact ⟨.inl before, spokenBy_nil _⟩
  | exits process' status answered =>
    refine ⟨⟨⟨⟨status⟩, rfl⟩, ?_⟩, spokenBy_nil _⟩
    rw [logOf_nil, List.append_nil]
    exact before
  | @sends process send takes =>
    obtain ⟨⟨exited, exits⟩, rfl⟩ := before
    rw [logOf_send, ← Send.poll_enqueued]
    exact ⟨⟨⟨exited, exits⟩, rfl⟩, newly_spokenBy (exits ▸ rfl) _⟩
  | @sent process send signals =>
    obtain ⟨⟨exited, exits⟩, rfl⟩ := before
    simp only [logOf_append, logOf_send, logOf_finished, logOf_signalled, List.append_nil]
    exact ⟨⟨exited, exits ▸ send.sent_enqueued⟩, newly_spokenBy (exits ▸ rfl) _⟩
  | @sendFailed process send takes error signals =>
    obtain ⟨⟨exited, exits⟩, rfl⟩ := before
    simp only [logOf_append, logOf_send, logOf_failed, logOf_signalled, List.append_nil]
    rw [← Send.poll_enqueued]
    have spoken := (send.poll (.failed takes error)).enqueued_cases
    exact ⟨spoken.imp_right fun whole => ⟨exited, exits ▸ whole⟩, newly_spokenBy (exits ▸ rfl) _⟩

theorem StdinMove.said {task task' : StdinTask} {events : List Event} {said : List Message}
    (move : StdinMove task events task') (before : task.Said said) :
    task'.Said (said ++ logOf events) ∧ SpokenBy .stdin (logOf events) := by
  cases move with
  | recvWaits | data bytes | wrote | writeWaits | writes n =>
    refine ⟨?_, spokenBy_nil _⟩
    exact (List.append_nil said).trans before
  | recvFailed error =>
    simp only [logOf_append, logOf_malformed, logOf_failed, logOf_nil, List.append_nil]
    exact ⟨.inl before, spokenBy_nil _⟩
  | closes => exact ⟨⟨rfl, (List.append_nil said).trans before⟩, spokenBy_nil _⟩
  | writeFailed error nonempty =>
    exact ⟨.inl ((List.append_nil said).trans before), spokenBy_nil _⟩
  | @sends send takes =>
    obtain ⟨closes, rfl⟩ := before
    rw [logOf_send, ← Send.poll_enqueued]
    exact ⟨⟨closes, rfl⟩, newly_spokenBy (closes ▸ rfl) _⟩
  | @sent send =>
    obtain ⟨closes, rfl⟩ := before
    simp only [logOf_append, logOf_send, logOf_finished, logOf_nil, List.append_nil]
    exact ⟨send.sent_enqueued.trans (congrArg (fun msg => [msg]) closes), newly_spokenBy (closes ▸ rfl) _⟩
  | @sendFailed send takes error =>
    obtain ⟨closes, rfl⟩ := before
    simp only [logOf_append, logOf_send, logOf_failed, logOf_nil, List.append_nil]
    rw [← Send.poll_enqueued]
    have spoken := (send.poll (.failed takes error)).enqueued_cases
    exact ⟨spoken.imp_right fun whole => closes ▸ whole, newly_spokenBy (closes ▸ rfl) _⟩

theorem OutputMove.said {ρ : Type} [MessageReader ρ] {output : Output} {rx : RxLocal ρ}
    {task task' : OutputTask} {events : List Event} {said : List Message}
    (move : OutputMove output rx task events task') (before : task.Said output said) :
    task'.Said output (said ++ logOf events) ∧ SpokenBy (.output output) (logOf events) := by
  cases move with
  | waits pipe' disabled' same overhears =>
    rw [overhears.quiet, List.append_nil]
    exact ⟨before, spokenBy_nil _⟩
  | data pipe' bytes same overhears =>
    obtain ⟨datas, rfl⟩ := before
    rw [overhears.quiet]
    exact ⟨⟨datas, bytes, rfl, rfl⟩, spokenBy_nil _⟩
  | eof opened overhears =>
    obtain ⟨datas, rfl⟩ := before
    rw [overhears.quiet]
    exact ⟨⟨datas, rfl, rfl⟩, spokenBy_nil _⟩
  | readFailed error overhears =>
    obtain ⟨datas, rfl⟩ := before
    simp only [logOf_append, overhears.quiet, logOf_failed, logOf_nil, List.append_nil]
    exact ⟨⟨datas, .inl rfl⟩, spokenBy_nil _⟩
  | close pipe' buffer opened closed =>
    exact ⟨before.imp fun datas same => (List.append_nil said).trans same, spokenBy_nil _⟩
  | closeAgain buffer errno closed =>
    exact ⟨before.imp fun datas same => .inl ((List.append_nil said).trans same), spokenBy_nil _⟩
  | @sends pipe send takes =>
    obtain ⟨datas, bytes, carries, rfl⟩ := before
    rw [logOf_send, List.append_assoc, ← Send.poll_enqueued]
    exact ⟨⟨datas, bytes, carries, rfl⟩, newly_spokenBy (carries ▸ speaker_output _ _) _⟩
  | @sent pipe send =>
    obtain ⟨datas, bytes, carries, rfl⟩ := before
    rw [logOf_send, List.append_assoc, send.sent_enqueued, carries, ← streamed_snoc]
    exact ⟨⟨datas ++ [bytes], rfl⟩, newly_spokenBy (carries ▸ speaker_output _ _) _⟩
  | @sendFailed pipe send takes error =>
    obtain ⟨datas, bytes, carries, rfl⟩ := before
    simp only [logOf_append, logOf_send, logOf_failed, logOf_nil, List.append_nil, List.append_assoc]
    rw [← Send.poll_enqueued]
    refine ⟨?_, newly_spokenBy (carries ▸ speaker_output _ _) _⟩
    rcases (send.poll (.failed takes error)).enqueued_cases with none | whole
    · exact ⟨datas, .inl (by rw [none, List.append_nil])⟩
    · exact ⟨datas ++ [bytes], .inl (by rw [whole, Send.poll_msg, carries, streamed_snoc])⟩
  | @finishes send takes =>
    obtain ⟨datas, closes, rfl⟩ := before
    rw [logOf_send, List.append_assoc, ← Send.poll_enqueued]
    exact ⟨⟨datas, closes, rfl⟩, newly_spokenBy (closes ▸ speaker_output _ _) _⟩
  | @finished send =>
    obtain ⟨datas, closes, rfl⟩ := before
    simp only [logOf_append, logOf_send, logOf_finished, logOf_nil, List.append_nil, List.append_assoc]
    rw [send.sent_enqueued, closes]
    exact ⟨⟨datas, rfl⟩, newly_spokenBy (closes ▸ speaker_output _ _) _⟩
  | @finishFailed send takes error =>
    obtain ⟨datas, closes, rfl⟩ := before
    simp only [logOf_append, logOf_send, logOf_failed, logOf_nil, List.append_nil, List.append_assoc]
    rw [← Send.poll_enqueued]
    refine ⟨?_, newly_spokenBy (closes ▸ speaker_output _ _) _⟩
    rcases (send.poll (.failed takes error)).enqueued_cases with none | whole
    · exact ⟨datas, .inl (by rw [none, List.append_nil])⟩
    · exact ⟨datas, .inr (by rw [whole, Send.poll_msg, closes])⟩

/-- What each task may have said when it ends, and has said when it succeeds. -/
def Shape : Task → List Message → Prop
  | .main, _ => True
  | .exit, said => said = [] ∨ ∃ exited, said = [.exited exited]
  | .stdin, said => said = [] ∨ said = [.stdin .closed]
  | .output output, said => ∃ datas, said = streamed output datas ∨
      said = streamed output datas ++ [output.message .closed]

def Whole : Task → List Message → Prop
  | .main, _ => True
  | .exit, said => ∃ exited, said = [.exited exited]
  | .stdin, said => said = [.stdin .closed]
  | .output output, said => ∃ datas, said = streamed output datas ++ [output.message .closed]

theorem Whole.shape {task : Task} {said : List Message} (whole : Whole task said) : Shape task said := by
  cases task with
  | main => trivial
  | exit => exact .inr whole
  | stdin => exact .inr whole
  | output output => exact whole.imp fun datas => .inr

theorem ExitTask.Said.shape {task : ExitTask} {said : List Message} (spoken : task.Said said) :
    Shape .exit said := by
  obtain _ | ⟨process, send⟩ | ⟨error | _⟩ := task
  · exact .inl spoken
  · obtain ⟨⟨exited, exits⟩, rfl⟩ := spoken
    exact send.enqueued_cases.imp_right fun whole => ⟨exited, exits ▸ whole⟩
  · exact spoken
  · exact .inr spoken

theorem StdinTask.Said.shape {task : StdinTask} {said : List Message} (spoken : task.Said said) :
    Shape .stdin said := by
  obtain _ | bytes | send | ⟨error | _⟩ := task
  · exact .inl spoken
  · exact .inl spoken
  · obtain ⟨closes, rfl⟩ := spoken
    exact send.enqueued_cases.imp_right fun whole => closes ▸ whole
  · exact spoken
  · exact .inr spoken

theorem OutputTask.Said.shape {output : Output} {task : OutputTask} {said : List Message}
    (spoken : task.Said output said) : Shape (.output output) said := by
  obtain ⟨pipe, disabled⟩ | ⟨pipe, send⟩ | send | ⟨error | _⟩ := task
  · exact spoken.imp fun datas => .inl
  · obtain ⟨datas, bytes, carries, rfl⟩ := spoken
    rcases send.enqueued_cases with none | whole
    · exact ⟨datas, .inl (by rw [none, List.append_nil])⟩
    · exact ⟨datas ++ [bytes], .inl (by rw [whole, carries, streamed_snoc])⟩
  · obtain ⟨datas, closes, rfl⟩ := spoken
    rcases send.enqueued_cases with none | whole
    · exact ⟨datas, .inl (by rw [none, List.append_nil])⟩
    · exact ⟨datas, .inr (by rw [whole, closes])⟩
  · exact spoken
  · exact spoken.imp fun datas => .inr

structure Tasks.Said (tasks : Tasks) (body : List Message) : Prop where
  exit : tasks.exit.Said (saidBy .exit body)
  stdin : tasks.stdin.Said (saidBy .stdin body)
  output : ∀ output, (tasks.output output).Said output (saidBy (.output output) body)
  onlyTasks : ∀ msg ∈ body, ∃ task, task ≠ .main ∧ speaker msg = some task

structure Body (said : Task → List Message → Prop) (body : List Message) : Prop where
  each : ∀ task, said task (saidBy task body)
  onlyTasks : ∀ msg ∈ body, ∃ task, task ≠ .main ∧ speaker msg = some task

namespace Tasks.Said

variable {tasks : Tasks} {body msgs : List Message}

theorem shapes (said : tasks.Said body) : Body Shape body where
  each task := by
    cases task with
    | main => trivial
    | exit => exact said.exit.shape
    | stdin => exact said.stdin.shape
    | output output => exact (said.output output).shape
  onlyTasks := said.onlyTasks

theorem onlyTasks_append (said : tasks.Said body) {task : Task} (own : SpokenBy task msgs)
    (apart : task ≠ .main) : ∀ msg ∈ body ++ msgs, ∃ task, task ≠ .main ∧ speaker msg = some task := by
  intro msg member
  rcases List.mem_append.mp member with earlier | now
  · exact said.onlyTasks msg earlier
  · exact ⟨task, apart, own msg now⟩

theorem saidBy_turn {task : Task} (own : SpokenBy task msgs) :
    saidBy task (body ++ msgs) = saidBy task body ++ msgs := by
  rw [saidBy_append, saidBy_own own]

theorem saidBy_wait {task : Task} (other : Task) (own : SpokenBy task msgs) (apart : task ≠ other) :
    saidBy other (body ++ msgs) = saidBy other body := by
  rw [saidBy_append, saidBy_other own apart, List.append_nil]

theorem exit_turn {ρ : Type} [MessageReader ρ] {rx : RxLocal ρ} {turn : ExitTurn} {events : List Event}
    {exit : ExitTask} (said : tasks.Said body) (move : ExitMove rx tasks.exit turn events exit) :
    Tasks.Said { tasks with exit } (body ++ logOf events) := by
  obtain ⟨after, own⟩ := move.said said.exit
  refine ⟨?_, ?_, fun output => ?_, said.onlyTasks_append own nofun⟩
  · rw [saidBy_turn own]
    exact after
  · rw [saidBy_wait .stdin own nofun]
    exact said.stdin
  · rw [saidBy_wait (.output output) own nofun]
    exact said.output output

theorem stdin_turn {events : List Event} {stdin : StdinTask} (said : tasks.Said body)
    (move : StdinMove tasks.stdin events stdin) : Tasks.Said { tasks with stdin } (body ++ logOf events) := by
  obtain ⟨after, own⟩ := move.said said.stdin
  refine ⟨?_, ?_, fun output => ?_, said.onlyTasks_append own nofun⟩
  · rw [saidBy_wait .exit own nofun]
    exact said.exit
  · rw [saidBy_turn own]
    exact after
  · rw [saidBy_wait (.output output) own nofun]
    exact said.output output

theorem output_turn {ρ : Type} [MessageReader ρ] {output : Output} {rx : RxLocal ρ} {events : List Event}
    {task : OutputTask} (said : tasks.Said body) (move : OutputMove output rx (tasks.output output) events task) :
    (tasks.setOutput task output).Said (body ++ logOf events) := by
  obtain ⟨after, own⟩ := move.said (said.output output)
  -- The task has moved and the others have neither moved nor spoken.
  refine ⟨?_, ?_, fun other => ?_, said.onlyTasks_append own nofun⟩
  · rw [saidBy_wait .exit own nofun, Tasks.setOutput_exit]
    exact said.exit
  · rw [saidBy_wait .stdin own nofun, Tasks.setOutput_stdin]
    exact said.stdin
  · by_cases same : output = other
    · subst same
      rw [saidBy_turn own, Tasks.setOutput_self]
      exact after
    · rw [saidBy_wait (.output other) own fun equal => same (Task.output.inj equal), Tasks.setOutput_other _ _ same]
      exact said.output other

theorem new (lineBuffered : Bool) (process : Process) (child : SpawnedChild) :
    (Tasks.new lineBuffered process child).Said [] where
  exit := rfl
  stdin := rfl
  output output := by cases output <;> exact ⟨[], rfl⟩
  onlyTasks := nofun

theorem joined (said : tasks.Said body) (all : tasks.join = some (.ok ())) : Body Whole body := by
  obtain ⟨exit, stdin, stdout, stderr⟩ := Tasks.join_ok all
  refine ⟨fun task => ?_, said.onlyTasks⟩
  cases task with
  | main => trivial
  | exit => exact (exit ▸ said.exit : ExitTask.Said (.ended (.ok ())) _)
  | stdin => exact (stdin ▸ said.stdin : StdinTask.Said (.ended (.ok ())) _)
  | output output =>
    have ended : tasks.output output = .ended (.ok ()) := by cases output <;> assumption
    exact (ended ▸ said.output output : OutputTask.Said output (.ended (.ok ())) _)

end Tasks.Said

end MinimalVm.Agent
