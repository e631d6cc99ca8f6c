import MinimalVm.Agent.Awaiting
import MinimalVm.Agent.Conversation

/-! A part of the agent that has finished has said all it has to say.

The last message of a task is enqueued before its future completes, and nothing
is enqueued after that in the turn in which the task finishes.
-/

set_option autoImplicit false

namespace MinimalVm.Agent

open MinimalVm.Semantics MinimalVm.Protocol MinimalVm.Io

/-! ## Where a finish can stand -/

section
variable {first rest more : List Event} {other : Task}

theorem Silent.unfinished (silent : Silent more) : more ≠ first ++ .finished other :: rest := by
  rintro rfl
  exact silent.2 other (by simp)

theorem send_unfinished (send : Send) (polled : SendPoll) (task : Task) : .finished task ∉ send.events polled := by
  intro member
  rcases List.mem_append.mp member with member | member
  · obtain ⟨msg, -, same⟩ := List.mem_map.mp member
    cases same
  · cases polled with
    | pending takes | sent => cases member
    | failed takes error => cases List.mem_singleton.mp member

theorem finished_after {send : Send} {polled : SendPoll}
    (split : send.events polled ++ more = first ++ .finished other :: rest) :
    ∃ middle, first = send.events polled ++ middle ∧ more = middle ++ .finished other :: rest := by
  rcases occurrence_append split with ⟨middle, shown, -⟩ | found
  · exact absurd (by simp [shown]) (send_unfinished send polled other)
  · exact found

theorem finished_never {send : Send} {polled : SendPoll} (silent : Silent more) :
    send.events polled ++ more ≠ first ++ .finished other :: rest := by
  intro split
  obtain ⟨middle, -, later⟩ := finished_after split
  exact silent.unfinished later

theorem finished_last {send : Send} {task : Task} (silent : Silent more)
    (split : send.events .sent ++ .finished task :: more = first ++ .finished other :: rest) :
    other = task ∧ logOf rest = [] := by
  obtain ⟨middle, -, later⟩ := finished_after split
  rcases List.cons_eq_append_iff.mp later with ⟨-, same⟩ | ⟨_, -, same⟩
  · cases same
    exact ⟨rfl, silent.1⟩
  · exact absurd same silent.unfinished

end

/-! ## Tasks -/

section
variable {ρ : Type} [MessageReader ρ] {rx : RxLocal ρ} {first rest events : List Event} {other : Task}

theorem ExitMove.parts {task task' : ExitTask} {turn : ExitTurn} (move : ExitMove rx task turn events task')
    (split : events = first ++ .finished other :: rest) :
    other = .exit ∧ task' = .ended (.ok ()) ∧ logOf rest = [] := by
  cases move with
  | waits signals => exact absurd split (silent_signalled signals).unfinished
  | @recvFailed _ process' _ _ error kept =>
    have dropped := (silent_failed .exit (.recv error)).append (silent_signalled process'.drop.1)
    exact absurd split ((silent_malformed .exit error).append dropped).unfinished
  | waitFailed error signals =>
    exact absurd split ((silent_failed .exit (.wait error)).append (silent_signalled signals)).unfinished
  | exits => exact absurd split silent_nil.unfinished
  | sends takes => exact absurd ((List.append_nil _).trans split) (finished_never silent_nil)
  | sent signals =>
    obtain ⟨rfl, quiet⟩ := finished_last (silent_signalled signals) split
    exact ⟨rfl, rfl, quiet⟩
  | sendFailed takes error signals =>
    exact absurd split (finished_never ((silent_failed .exit (.send error)).append (silent_signalled signals)))

theorem StdinMove.parts {task task' : StdinTask} (move : StdinMove task events task')
    (split : events = first ++ .finished other :: rest) :
    other = .stdin ∧ task' = .ended (.ok ()) ∧ logOf rest = [] := by
  cases move with
  | recvWaits | data | wrote | writeWaits | closes => exact absurd split silent_nil.unfinished
  | recvFailed error =>
    exact absurd split ((silent_malformed .stdin error).append (silent_failed .stdin _)).unfinished
  | @writes bytes n =>
    have shown : Silent [.written (bytes.take n)] := ⟨rfl, fun _ member => nomatch List.mem_singleton.mp member⟩
    exact absurd split shown.unfinished
  | writeFailed error => exact absurd split (silent_failed .stdin _).unfinished
  | sends takes => exact absurd ((List.append_nil _).trans split) (finished_never silent_nil)
  | sent =>
    obtain ⟨rfl, quiet⟩ := finished_last silent_nil split
    exact ⟨rfl, rfl, quiet⟩
  | sendFailed takes error => exact absurd split (finished_never (silent_failed .stdin (.send error)))

theorem OutputMove.parts {output : Output} {task task' : OutputTask} (move : OutputMove output rx task events task')
    (split : events = first ++ .finished other :: rest) :
    other = .output output ∧ task' = .ended (.ok ()) ∧ logOf rest = [] := by
  cases move with
  | waits _ _ _ overhears | data _ _ _ overhears | eof _ overhears => exact absurd split overhears.silent.unfinished
  | readFailed error overhears => exact absurd split (overhears.silent.append (silent_failed _ _)).unfinished
  | close pipe' buffer =>
    have shown : Silent [.closeHandled output buffer] := ⟨rfl, fun _ member => nomatch List.mem_singleton.mp member⟩
    exact absurd split shown.unfinished
  | closeAgain buffer errno =>
    have shown : Silent [.closeHandled output buffer] := ⟨rfl, fun _ member => nomatch List.mem_singleton.mp member⟩
    exact absurd split (shown.append (silent_failed (.output output) (.closing output errno))).unfinished
  | sends takes | finishes takes => exact absurd ((List.append_nil _).trans split) (finished_never silent_nil)
  | sent => exact absurd ((List.append_nil _).trans split) (finished_never silent_nil)
  | sendFailed takes error | finishFailed takes error =>
    exact absurd split (finished_never (silent_failed (.output output) (.send error)))
  | finished =>
    obtain ⟨rfl, quiet⟩ := finished_last silent_nil split
    exact ⟨rfl, rfl, quiet⟩

end

/-! ## The agent -/

def Tasks.Succeeded (tasks : Tasks) : Task → Prop
  | .main => False
  | .exit => tasks.exit = .ended (.ok ())
  | .stdin => tasks.stdin = .ended (.ok ())
  | .output output => tasks.output output = .ended (.ok ())

theorem Tasks.Said.succeeded {tasks : Tasks} {body : List Message} (said : tasks.Said body) {task : Task}
    (succeeded : tasks.Succeeded task) : task ≠ .main ∧ Whole task (saidBy task body) := by
  cases task with
  | main => cases succeeded
  | exit =>
    have ended : tasks.exit = .ended (.ok ()) := succeeded
    exact ⟨nofun, (ended ▸ said.exit : ExitTask.Said (.ended (.ok ())) _)⟩
  | stdin =>
    have ended : tasks.stdin = .ended (.ok ()) := succeeded
    exact ⟨nofun, (ended ▸ said.stdin : StdinTask.Said (.ended (.ok ())) _)⟩
  | output output =>
    have ended : tasks.output output = .ended (.ok ()) := succeeded
    exact ⟨nofun, (ended ▸ said.output output : OutputTask.Said output (.ended (.ok ())) _)⟩

section
variable {ρ : Type} [MessageReader ρ] {s t : Agent ρ}

/-- Where a step shows a finish, a task has ended and nothing more is enqueued. -/
def Finishes (t : Agent ρ) (events : List Event) : Prop :=
  ∀ first task rest, events = first ++ .finished task :: rest →
    logOf rest = [] ∧ ∃ tasks, t.phase = .running tasks ∧ tasks.Succeeded task

omit [MessageReader ρ] in
theorem Finishes.of_silent {events : List Event} (silent : Silent events) : Finishes t events :=
  fun _ _ _ split => absurd split silent.unfinished

omit [MessageReader ρ] in
theorem Finishes.of_poll {send : Send} {polled : SendPoll} {events : List Event} (silent : Silent events) :
    Finishes t (send.events polled ++ events) :=
  fun _ _ _ split => absurd split (finished_never silent)

theorem AgentMove.finishes {action : Action} (move : AgentMove s action t) :
    ∃ events, t.events = s.events ++ events ∧ Finishes t events := by
  cases move with
  | receives => exact ⟨[], (List.append_nil _).symm, .of_silent silent_nil⟩
  | refuses rx error => exact ⟨_, rfl, .of_silent (silent_malformed .main error)⟩
  | requested | disconnected | spawnFailed | joined | joinFailed | closes => exact ⟨[], rfl, .of_silent silent_nil⟩
  | spawned child =>
    exact ⟨_, rfl, .of_silent ⟨rfl, fun _ member => nomatch List.mem_singleton.mp member⟩⟩
  | childExits status =>
    exact ⟨_, rfl, .of_silent ⟨rfl, fun _ member => nomatch List.mem_singleton.mp member⟩⟩
  | starts | started | reports | reported | reportFailed =>
    exact ⟨_, rfl, fun _ _ _ split => absurd ((List.append_nil _).trans split) (finished_never silent_nil)⟩
  | startFailed => exact ⟨_, rfl, .of_poll (silent_signalled _)⟩
  | @exit tasks turn turned running allowed stepped =>
    refine ⟨turned.events, rfl, fun first task rest split => ?_⟩
    obtain ⟨rfl, ended, quiet⟩ := (ExitTask.step_move stepped).parts split
    exact ⟨quiet, _, rfl, ended⟩
  | @stdin tasks turn turned running stepped =>
    refine ⟨turned.events, rfl, fun first task rest split => ?_⟩
    obtain ⟨rfl, ended, quiet⟩ := (StdinTask.step_move stepped).parts split
    exact ⟨quiet, _, rfl, ended⟩
  | @output tasks output turn turned running stepped =>
    refine ⟨turned.events, rfl, fun first task rest split => ?_⟩
    obtain ⟨rfl, ended, quiet⟩ := (OutputTask.step_move stepped).parts split
    exact ⟨quiet, _, rfl, (tasks.setOutput_self turned.task output).trans ended⟩

/-- Whoever has finished had said everything before. -/
def Parted (events : List Event) : Prop :=
  ∀ first task rest, events = first ++ .finished task :: rest → Whole task (saidBy task (logOf first))

theorem Parted.step {action : Action} (parted : Parted s.events) (said : Converses t.events t.phase)
    (move : AgentMove s action t) : Parted t.events := by
  intro first task rest split
  obtain ⟨events, grown, finishes⟩ := move.finishes
  rcases occurrence_append (grown.symm.trans split) with ⟨middle, earlier, -⟩ | ⟨middle, rfl, later⟩
  · exact parted first task middle earlier
  · obtain ⟨quiet, tasks, running, succeeded⟩ := finishes middle task rest later
    rw [running] at said
    obtain ⟨started, body, spoken, tasksSaid⟩ := said
    obtain ⟨apart, whole⟩ := tasksSaid.succeeded succeeded
    have all : logOf (s.events ++ middle) = .started started :: body := by
      rw [← spoken, grown, later]
      simp only [logOf_append, logOf_finished, quiet, List.append_nil]
    rwa [all, saidBy_started apart]

theorem parted_run {reader : ρ} {actions : List Action} (run : execute Agent.step (.new reader) actions = some s) :
    Parted s.events := by
  have both : Converses s.events s.phase ∧ Parted s.events := by
    apply invariant_execute (fun s : Agent ρ => Converses s.events s.phase ∧ Parted s.events) ?_ ?_ run
    · intro s action t before moved
      have move := Agent.step_move moved
      have said := move.converses before.1
      exact ⟨said, before.2.step said move⟩
    · exact ⟨converses_new reader, fun first task rest split => by cases first <;> cases split⟩
  exact both.2

end
end MinimalVm.Agent
