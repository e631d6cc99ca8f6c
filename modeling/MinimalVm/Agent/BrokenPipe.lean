import MinimalVm.Agent.Killing
import MinimalVm.Agent.Mail

/-! What becomes of input that the child no longer reads.

The stdin task hands a refused write on as its own failure. It does not say
that the input is closed, and its result, once all tasks have been joined, is
reported to the host as an error.
-/

set_option autoImplicit false

namespace MinimalVm.Agent

open MinimalVm.Semantics MinimalVm.Protocol MinimalVm.Io

def Event.spawns : Event → Bool
  | .spawned _ => true
  | _ => false

def Event.breaks : Event → Bool
  | .failed .stdin (.io _) => true
  | _ => false

/-- Nothing fails but writes to the child's input. -/
def OnlyInputFails (events : List Event) : Prop :=
  ¬ Shows Event.sendFails events ∧
    ∀ task error, .failed task error ∈ events → task = .stdin ∧ ∃ cause, error = .io cause

def refusesInput {ρ : Type} [MessageReader ρ] (s : Agent ρ) (action : Action) : Bool :=
  match s.phase, action with
  | .running tasks, .stdin (.write answer) => tasks.stdin.fails s.rx (.write answer)
  | _, _ => false

/-! ## Tasks that have failed -/

def ExitTask.Failed : ExitTask → Prop
  | .ended (.error _) => True
  | .ended (.ok ()) | .waiting _ | .sending _ _ => False

def StdinTask.Failed : StdinTask → Prop
  | .ended (.error _) => True
  | .ended (.ok ()) | .receiving | .writing _ | .sending _ => False

def OutputTask.Failed : OutputTask → Prop
  | .ended (.error _) => True
  | .ended (.ok ()) | .reading _ _ | .sending _ _ | .finishing _ => False

def Tasks.Failed (this : Tasks) : Prop :=
  this.exit.Failed ∨ this.stdin.Failed ∨ this.stdout.Failed ∨ this.stderr.Failed

@[simp] theorem isFailure_malformed (task : Task) (error : RecvError) :
    ¬ Shows Event.isFailure (malformed task error) :=
  shows_malformed (fun _ _ => rfl) task error

section
variable {ρ : Type} [MessageReader ρ] {rx : RxLocal ρ}

theorem ExitMove.failed {task task' : ExitTask} {turn : ExitTurn} {events : List Event}
    (move : ExitMove rx task turn events task') :
    ¬ task.Failed ∧ (task'.Failed ↔ Shows Event.isFailure events) := by
  cases move <;> simp [ExitTask.Failed, Event.isFailure]

theorem StdinMove.failed {task task' : StdinTask} {events : List Event} (move : StdinMove task events task') :
    ¬ task.Failed ∧ (task'.Failed ↔ Shows Event.isFailure events) := by
  cases move <;> simp [StdinTask.Failed, Event.isFailure]

theorem OutputMove.failed {output : Output} {task task' : OutputTask} {events : List Event}
    (move : OutputMove output rx task events task') :
    ¬ task.Failed ∧ (task'.Failed ↔ Shows Event.isFailure events) := by
  have quiet {heard : List Event} (overhears : Overhears output rx heard) : ¬ Shows Event.isFailure heard :=
    overhears.shows fun _ _ => rfl
  cases move with
  | waits pipe' disabled' same overhears => simp [OutputTask.Failed, quiet overhears]
  | data pipe' bytes same overhears => simp [OutputTask.Failed, quiet overhears]
  | eof opened overhears => simp [OutputTask.Failed, quiet overhears]
  | readFailed error overhears => simp [OutputTask.Failed, Event.isFailure]
  | close | closeAgain | sends | sent | sendFailed | finishes | finished | finishFailed =>
    simp [OutputTask.Failed, Event.isFailure]

end

section
variable {tasks : Tasks}

theorem Tasks.failed_exit (exit : ExitTask) (live : ¬ tasks.exit.Failed) :
    Tasks.Failed { tasks with exit } ↔ tasks.Failed ∨ exit.Failed := by
  simp only [Tasks.Failed, live, false_or]
  exact or_comm

theorem Tasks.failed_stdin (stdin : StdinTask) (live : ¬ tasks.stdin.Failed) :
    Tasks.Failed { tasks with stdin } ↔ tasks.Failed ∨ stdin.Failed := by
  simp only [Tasks.Failed, live, false_or]
  rw [or_assoc, or_comm (a := stdin.Failed)]

theorem Tasks.failed_output {output : Output} (task : OutputTask) (live : ¬ (tasks.output output).Failed) :
    (tasks.setOutput task output).Failed ↔ tasks.Failed ∨ task.Failed := by
  cases output with
  | stdout =>
    have before : ¬ tasks.stdout.Failed := live
    simp only [Tasks.Failed, Tasks.setOutput, before, false_or]
    grind
  | stderr =>
    have before : ¬ tasks.stderr.Failed := live
    simp only [Tasks.Failed, Tasks.setOutput, before, or_false]
    grind

theorem Tasks.failed_of_join {error : AgentError} (joined : tasks.join = some (.error error)) : tasks.Failed := by
  obtain ⟨exit, stdin, stdout, stderr, exits, stdins, stdouts, stderrs, result⟩ := Tasks.join_some joined
  unfold Tasks.Failed
  obtain exit | _ := exit
  · exact .inl (exits ▸ trivial)
  obtain stdin | _ := stdin
  · exact .inr (.inl (stdins ▸ trivial))
  obtain stdout | _ := stdout
  · exact .inr (.inr (.inl (stdouts ▸ trivial)))
  obtain stderr | _ := stderr
  · exact .inr (.inr (.inr (stderrs ▸ trivial)))
  cases result

theorem Tasks.not_failed_of_join (joined : tasks.join = some (.ok ())) : ¬ tasks.Failed := by
  obtain ⟨exit, stdin, stdout, stderr⟩ := Tasks.join_ok joined
  unfold Tasks.Failed
  rw [exit, stdin, stdout, stderr]
  simp [ExitTask.Failed, StdinTask.Failed, OutputTask.Failed]

end

/-! ## How a failure reaches the end of the agent -/

/-- Something else can have gone wrong, or there is no child. -/
def Excused (events : List Event) : Prop := Shows Event.sendFails events ∨ ¬ Shows Event.spawns events

def Phase.Faults (failed excused : Prop) : Phase → Prop
  | .receiving | .spawning _ => ¬ failed ∧ excused
  | .starting _ _ _ _ => ¬ failed
  | .running tasks => failed ↔ tasks.Failed
  | .failing _ _ => failed ∨ excused
  | .closing (.ok ()) | .done (.ok ()) => ¬ failed
  | .closing (.error _) | .done (.error _) => failed ∨ excused

@[simp] theorem spawns_send (send : Send) (polled : SendPoll) : ¬ Shows Event.spawns (send.events polled) :=
  shows_send (fun _ => rfl) (fun _ _ => rfl) send polled

theorem Excused.append {events more : List Event} (excused : Excused events) (none : ¬ Shows Event.spawns more) :
    Excused (events ++ more) := by
  unfold Excused
  rw [shows_append, shows_append]
  exact excused.imp .inl fun unspawned spawned => spawned.elim unspawned none

theorem calm_append {events more : List Event} (before : ¬ Shows Event.isFailure events)
    (none : ¬ Shows Event.isFailure more) : ¬ Shows Event.isFailure (events ++ more) := fun shown =>
  ((shows_append _ _).mp shown).elim before none

theorem Phase.Faults.failing {events more : List Event}
    (faults : Shows Event.isFailure events ∨ Excused events) (none : ¬ Shows Event.spawns more) :
    Shows Event.isFailure (events ++ more) ∨ Excused (events ++ more) :=
  faults.imp (fun failed => (shows_append _ _).mpr (.inl failed)) fun excused => excused.append none

theorem Phase.Faults.beside {events more : List Event} {phase : Phase}
    (faults : phase.Faults (Shows Event.isFailure events) (Excused events)) (calm : ¬ Shows Event.isFailure more)
    (none : ¬ Shows Event.spawns more) :
    phase.Faults (Shows Event.isFailure (events ++ more)) (Excused (events ++ more)) := by
  have same : Shows Event.isFailure (events ++ more) ↔ Shows Event.isFailure events := by
    rw [shows_append]
    exact or_iff_left calm
  cases phase with
  | receiving => exact ⟨calm_append faults.1 calm, faults.2.append none⟩
  | spawning exec => exact ⟨calm_append faults.1 calm, faults.2.append none⟩
  | starting lineBuffered process child send => exact calm_append faults calm
  | running tasks => exact same.trans faults
  | failing error send => exact Phase.Faults.failing faults none
  | closing status | done status =>
    obtain error | _ := status
    · exact Phase.Faults.failing faults none
    · exact calm_append faults calm

theorem isFailure_append {events more : List Event} {before own after : Prop}
    (whole : Shows Event.isFailure events ↔ before) (failed : own ↔ Shows Event.isFailure more)
    (joint : after ↔ before ∨ own) : Shows Event.isFailure (events ++ more) ↔ after := by
  rw [shows_append, whole, ← failed]
  exact joint.symm

section
variable {ρ : Type} [MessageReader ρ] {s t : Agent ρ} {action : Action}

theorem AgentMove.faults (move : AgentMove s action t)
    (before : s.phase.Faults (Shows Event.isFailure s.events) (Excused s.events)) :
    t.phase.Faults (Shows Event.isFailure t.events) (Excused t.events) := by
  cases move with
  | receives rx phase => exact before
  | refuses rx error phase =>
    rw [phase] at before
    exact .inr (before.2.append (shows_malformed (fun _ _ => rfl) _ error))
  | disconnected rx phase =>
    rw [phase] at before
    exact .inr (before.2.append shows_nil)
  | requested rx exec phase =>
    rw [phase] at before
    exact ⟨calm_append before.1 shows_nil, before.2.append shows_nil⟩
  | spawnFailed debug phase =>
    rw [phase] at before
    exact .inr (before.2.append shows_nil)
  | spawned child phase =>
    rw [phase] at before
    exact calm_append before.1 (by simp [Event.isFailure])
  | starts takes phase =>
    rw [phase] at before
    exact calm_append before (isFailure_send _ _)
  | @started lineBuffered process child send phase =>
    rw [phase] at before
    have calm : ¬ Shows Event.isFailure (s.events ++ send.events .sent) := calm_append before (isFailure_send _ _)
    refine ⟨fun failed => absurd failed calm, ?_⟩
    rintro (failed | failed | failed | failed) <;> cases failed
  | @startFailed lineBuffered process child send takes error phase =>
    refine .inr (.inl ((shows_append _ _).mpr (.inr ?_)))
    exact sendFails_failed send takes error _
  | @exit tasks turn turned phase allowed stepped =>
    rw [phase] at before
    obtain ⟨live, failed⟩ := (ExitTask.step_move stepped).failed
    exact isFailure_append before failed (Tasks.failed_exit _ live)
  | @stdin tasks turn turned phase stepped =>
    rw [phase] at before
    obtain ⟨live, failed⟩ := (StdinTask.step_move stepped).failed
    exact isFailure_append before failed (Tasks.failed_stdin _ live)
  | @output tasks output turn turned phase stepped =>
    rw [phase] at before
    obtain ⟨live, failed⟩ := (OutputTask.step_move stepped).failed
    exact isFailure_append before failed (Tasks.failed_output _ live)
  -- The join has found no error in a result, so no task has failed.
  | joined phase all =>
    rw [phase] at before
    exact calm_append (fun failed => Tasks.not_failed_of_join all (before.mp failed)) shows_nil
  | joinFailed phase some =>
    rw [phase] at before
    exact .inl ((shows_append _ _).mpr (.inl (before.mpr (Tasks.failed_of_join some))))
  | reports takes phase =>
    rw [phase] at before
    exact Phase.Faults.failing before (spawns_send _ _)
  | reported phase =>
    rw [phase] at before
    exact Phase.Faults.failing before (spawns_send _ _)
  | reportFailed takes cause phase =>
    rw [phase] at before
    exact Phase.Faults.failing before (spawns_send _ _)
  | @closes status phase =>
    rw [phase] at before
    obtain error | _ := status
    · exact Phase.Faults.failing before shows_nil
    · exact calm_append before shows_nil
  | @childExits pid status alive => exact before.beside (by simp [Event.isFailure]) (by simp [Event.spawns])

theorem faults_run {reader : ρ} {actions : List Action} (run : execute Agent.step (.new reader) actions = some s) :
    s.phase.Faults (Shows Event.isFailure s.events) (Excused s.events) := by
  refine invariant_execute
    (fun s : Agent ρ => s.phase.Faults (Shows Event.isFailure s.events) (Excused s.events)) ?_ ?_ run
  · intro s action t before moved
    exact (Agent.step_move moved).faults before
  · exact ⟨shows_nil, .inr shows_nil⟩

/-! ## Refused writes -/

theorem Shows.isFailure_of_breaks {events : List Event} (shown : Shows Event.breaks events) :
    Shows Event.isFailure events := by
  obtain ⟨event, member, breaks⟩ := shown
  refine ⟨event, member, ?_⟩
  cases event with
  | failed task error => rfl
  | _ => cases breaks

theorem Shows.isOf_of_breaks {events : List Event} (shown : Shows Event.breaks events) :
    Shows (Event.isOf .stdin) events := by
  obtain ⟨event, member, breaks⟩ := shown
  refine ⟨event, member, ?_⟩
  cases event with
  | failed task error =>
    cases task with
    | stdin => rfl
    | _ => cases breaks
  | _ => cases breaks

@[simp] theorem breaks_send (send : Send) (polled : SendPoll) : ¬ Shows Event.breaks (send.events polled) :=
  fun shown => isFailure_send send polled shown.isFailure_of_breaks

@[simp] theorem breaks_malformed (task : Task) (error : RecvError) : ¬ Shows Event.breaks (malformed task error) :=
  fun shown => isFailure_malformed task error shown.isFailure_of_breaks

theorem StdinTask.step_unbroken {rx : RxLocal ρ} {task : StdinTask} {turn : StdinTurn} {turned : Turn StdinTask ρ}
    (moved : task.step rx turn = some turned)
    (accepted : ∀ answer, turn = .write answer → task.fails rx (.write answer) = false) :
    ¬ Shows Event.breaks turned.events := by
  cases StdinTask.step_turned moved with
  | recv =>
    show ¬ Shows Event.breaks (handleStdin _ _).events
    generalize rx.pollRecv (Stdin (Option Bytes)) = polled
    obtain ⟨_ | error | _ | ⟨_ | bytes⟩, rx'⟩ := polled
    · exact shows_nil
    · simp [handleStdin, endStdin, ending, Event.breaks]
    · exact shows_nil
    · exact shows_nil
    · exact shows_nil
  | write bytes answer => exact fun shown => step_calm moved (accepted answer rfl) shown.isFailure_of_breaks
  | sends send takes => exact breaks_send send _
  | sendFailed send takes error =>
    show ¬ Shows Event.breaks (send.events _ ++ [.failed .stdin (.send error)])
    simp [Event.breaks]
  | sent send =>
    show ¬ Shows Event.breaks (send.events _ ++ [.finished .stdin])
    simp [Event.breaks]

theorem StdinTask.write_fails {rx : RxLocal ρ} {task : StdinTask} {answer : Poll (Except IoError Nat)}
    {turned : Turn StdinTask ρ} (moved : task.step rx (.write answer) = some turned)
    (refused : task.fails rx (.write answer) = true) : Shows Event.isFailure turned.events := by
  cases StdinTask.step_turned moved with
  | write bytes answer =>
    have offered (nonempty : !bytes.isEmpty) : bytes ≠ [] := by simpa using nonempty
    obtain _ | error | n := answer
    · cases refused
    · simp [writeStdin, offered refused, endStdin, ending, Event.isFailure]
    · cases n with
      | zero => simp [writeStdin, offered refused, endStdin, ending, Event.isFailure]
      | succ n => cases refused

/-! ## Every run -/

theorem AgentMove.unbroken (move : AgentMove s action t) (said : Converses s.events s.phase)
    (accepted : refusesInput s action = false) (before : ¬ Shows Event.breaks s.events) :
    ¬ Shows Event.breaks t.events := by
  obtain ⟨more, grown, doneBy⟩ := move.doneBy said
  rw [grown, shows_append]
  refine fun shown => shown.elim before fun new => ?_
  by_cases own : action.task = .stdin
  · cases move with
    | @stdin tasks turn turned phase stepped =>
      have same : more = turned.events := (List.append_cancel_left grown).symm
      refine StdinTask.step_unbroken stepped (fun answer write => ?_) (same ▸ new)
      subst write
      simpa only [refusesInput, phase] using accepted
    | _ => cases own
  · exact doneBy.about .stdin own new.isOf_of_breaks

theorem unbroken_run {reader : ρ} {actions : List Action} (run : execute Agent.step (.new reader) actions = some s)
    (accepted : Throughout Agent.step (fun s action => refusesInput s action = false) (.new reader) actions) :
    ¬ Shows Event.breaks s.events := by
  have holds := invariant_throughout
    (fun s : Agent ρ => Converses s.events s.phase ∧ ¬ Shows Event.breaks s.events)
    (fun s action t before accepted moved =>
      have move := Agent.step_move moved
      ⟨move.converses before.1, move.unbroken before.1 accepted before.2⟩)
    ⟨converses_new reader, shows_nil⟩ accepted run
  exact holds.2

theorem refused_fails {u v : Agent ρ} (moved : u.step action = some v) (refused : refusesInput u action = true) :
    Shows Event.isFailure v.events := by
  have move := Agent.step_move moved
  unfold refusesInput at refused
  split at refused
  · rename_i tasks answer phase
    cases move with
    | @stdin tasks' turn turned phase' stepped =>
      cases phase.symm.trans phase'
      exact (shows_append _ _).mpr (.inr (StdinTask.write_fails stepped refused))
  · cases refused

end

/-- An agent whose child was spawned, and in which nothing fails but writes to the
child's input, ends with everything said and no error just as long as no such
write is refused. -/
theorem refused_input {ρ : Type} [MessageReader ρ] (reader : ρ) (actions : List Action) (s : Agent ρ)
    (status : Ending) (run : execute Agent.step (.new reader) actions = some s) (ended : s.phase = .done status)
    (spawned : ∃ pid, .spawned pid ∈ s.events) (only : OnlyInputFails s.events) :
    (Complete s.log ∧ ∀ error, .error error ∉ s.log) ↔
      Throughout Agent.step (fun s action => refusesInput s action = false) (.new reader) actions := by
  have said := converses_run run
  have faults := faults_run run
  rw [ended] at said faults
  obtain ⟨pid, child⟩ := spawned
  have unexcused : ¬ Excused s.events := fun excused =>
    excused.elim only.1 fun unspawned => unspawned ⟨_, child, rfl⟩
  constructor
  · rintro ⟨complete, noError⟩
    apply Classical.byContradiction
    intro refused
    obtain ⟨first, action, rest, u, v, rfl, before, moved, after, refuses⟩ := exists_of_not_throughout run refused
    obtain ⟨later, grown⟩ := execute_grows after
    have failed : Shows Event.isFailure s.events :=
      grown ▸ (shows_append _ _).mpr (.inl (refused_fails moved (Bool.not_eq_false _ ▸ refuses)))
    -- So the agent's own result is an error, and it has been able to say so.
    obtain error | _ := status
    · obtain ⟨spoken, shape, same | ⟨-, unreported⟩⟩ := said
      · exact noError ⟨error.message⟩ (by rw [Agent.log, same]; simp)
      · obtain ⟨reported, cause, unsent⟩ := unreported
        exact only.1 ⟨_, unsent, rfl⟩
    · exact faults failed
  · intro accepted
    have unbroken := unbroken_run run accepted
    have calm : ¬ Shows Event.isFailure s.events := by
      rintro ⟨event, member, isFailure⟩
      cases event with
      | failed task error =>
        obtain ⟨rfl, cause, rfl⟩ := only.2 task error member
        exact unbroken ⟨_, member, rfl⟩
      | _ => cases isFailure
    obtain error | _ := status
    · exact absurd faults (not_or.mpr ⟨calm, unexcused⟩)
    · obtain ⟨started, body, same, whole⟩ := said
      refine ⟨?_, fun error member => ?_⟩
      · rw [Agent.log, same]
        exact whole.complete
      · rw [Agent.log, same] at member
        exact (Spoken.whole whole).no_error error member

def reading : List Action :=
  [.receive, .spawn (.ok ⟨7, [], []⟩), .start .sent, .stdin .recv, .stdin (.write (.ready (.ok 1))),
    .stdin (.write .pending), .stdin .recv, .stdin (.send .sent), .childExits 0,
    .exit (.select false (.ready (.ok 0))), .exit (.send .sent), .output .stdout (.select true false),
    .output .stdout (.send .sent), .output .stderr (.select true false), .output .stderr (.send .sent), .join, .close]

theorem refused_input_reading :
    let start : Agent Connection := .new ⟨messageLines [.exec (request "cat"), .stdin (.data [104]), .stdin .closed]⟩
    ∃ s : Agent Connection, .written [104] ∈ s.events ∧
      ((Complete s.log ∧ ∀ error, .error error ∉ s.log) ↔
        Throughout Agent.step (fun s action => refusesInput s action = false) start reading) := by
  intro start
  have completes : (execute Agent.step start reading).map
      (fun s => (s.phase.status?.isSome, s.events.take 3, s.events.any Event.sendFails,
        s.events.any Event.isFailure)) =
      some (true, [.spawned 7, .enqueued (.started ⟨7⟩), .written [104]], false, false) := by
    decide +kernel
  obtain ⟨s, run, ended⟩ := Option.map_eq_some_iff.mp completes
  obtain ⟨done, ended⟩ := Prod.mk.inj ended
  obtain ⟨first, ended⟩ := Prod.mk.inj ended
  obtain ⟨sent, calm⟩ := Prod.mk.inj ended
  obtain ⟨status, same⟩ := Option.isSome_iff_exists.mp done
  have early {event : Event} (member : event ∈ s.events.take 3) : event ∈ s.events := List.mem_of_mem_take member
  have only : OnlyInputFails s.events := by
    refine ⟨not_shows_of_any sent, fun task error member => ?_⟩
    exact absurd ⟨_, member, rfl⟩ (not_shows_of_any calm)
  refine ⟨s, early (by simp [first]), ?_⟩
  exact refused_input _ reading s status run (Phase.status?_some same) ⟨7, early (by simp [first])⟩ only

/-- The child has closed its input when the host's data is written to it. -/
theorem refused_input_deaf :
    ∃ (s : Agent Connection) (status : Ending),
      execute Agent.step (.new ⟨messageLines [.exec (request "true"), .stdin (.data [104, 105])]⟩) deaf = some s ∧
        s.phase = .done status ∧ .spawned 7 ∈ s.events ∧ OnlyInputFails s.events ∧
        .stdin .closed ∉ s.log ∧ .error ⟨"Broken pipe (os error 32)"⟩ ∈ s.log := by
  have completes : (execute Agent.step
      (.new (⟨messageLines [.exec (request "true"), .stdin (.data [104, 105])]⟩ : Connection)) deaf).map
      (fun s => (s.phase.status?.isSome, s.events)) =
      some (true, [.spawned 7, .enqueued (.started ⟨7⟩), .failed .stdin (.io ⟨"Broken pipe (os error 32)"⟩),
        .childExited 7 0, .enqueued (.exited ⟨0⟩), .finished .exit, .enqueued (.stdout .closed),
        .finished (.output .stdout), .enqueued (.stderr .closed), .finished (.output .stderr),
        .enqueued (.error ⟨"Broken pipe (os error 32)"⟩)]) := by
    decide +kernel
  obtain ⟨s, run, ended⟩ := Option.map_eq_some_iff.mp completes
  obtain ⟨done, events⟩ := Prod.mk.inj ended
  obtain ⟨status, same⟩ := Option.isSome_iff_exists.mp done
  refine ⟨s, status, run, Phase.status?_some same, ?_, ⟨?_, ?_⟩, ?_, ?_⟩
  · simp [events]
  · simp [events, Event.sendFails]
  · intro task error member
    simp [events] at member
    exact ⟨member.1, _, member.2⟩
  · simp [Agent.log, events, logOf, Event.message?]
  · simp [Agent.log, events, logOf, Event.message?]

end MinimalVm.Agent
