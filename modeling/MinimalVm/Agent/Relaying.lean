import MinimalVm.Agent.Handle
import MinimalVm.Agent.Mail
import MinimalVm.Semantics.Counting

/-! What the agent sends to its child, and what it learns of the child's end.

While the exit task waits, its handle stands for a child that has not been
reaped, whichever `wait` was dropped before. So each kill it takes is relayed at
once, and what it learns from the one `wait` that completes is the last it does
with the child.
-/

set_option autoImplicit false

namespace MinimalVm.Agent

open MinimalVm.Semantics MinimalVm.Protocol MinimalVm.Io

def Event.signal? : Event → Option Signal
  | .signalled signal => some signal
  | _ => none

def signalsOf (events : List Event) : List Signal := events.filterMap Event.signal?

def relayed (pid : UInt32) (kill : Kill) : Signal := signalPid pid kill.signal

section
variable {ρ : Type} [MessageReader ρ]

/-- The kills that a turn of the exit task takes. -/
def ExitTask.kills (this : ExitTask) (rx : RxLocal ρ) : ExitTurn → List Kill
  | .select killFirst answer =>
    match this with
    | .waiting process => if pollsKill process killFirst answer then delivered (rx.pollRecv Kill).1 else []
    | .sending _ _ | .ended _ => []
  | .send _ => []

/-- The results of a `wait` that completes in a turn of the exit task. -/
def ExitTask.waits (this : ExitTask) (rx : RxLocal ρ) : ExitTurn → List (Except ArcErr Int32)
  | .select killFirst answer =>
    match this with
    | .waiting process => if pollsWait rx killFirst then (process.pollWait answer).1.value?.toList else []
    | .sending _ _ | .ended _ => []
  | .send _ => []

def killsTaken (s : Agent ρ) (action : Action) : List Kill :=
  match s.phase, action with
  | .running tasks, .exit turn => tasks.exit.kills s.rx turn
  | _, _ => []

def waitsOver (s : Agent ρ) (action : Action) : List (Except ArcErr Int32) :=
  match s.phase, action with
  | .running tasks, .exit turn => tasks.exit.waits s.rx turn
  | _, _ => []

end

def Unreaped (waits : List (Except ArcErr Int32)) : Prop := ∀ status, .ok status ∉ waits

/-! ## The signals among events -/

@[simp] theorem signalsOf_append (first rest : List Event) :
    signalsOf (first ++ rest) = signalsOf first ++ signalsOf rest := List.filterMap_append

@[simp] theorem signalsOf_signalled (signals : List Signal) : signalsOf (signals.map .signalled) = signals := by
  induction signals with
  | nil => rfl
  | cons signal signals ih => exact congrArg (signal :: ·) ih

theorem signalsOf_quiet {events : List Event} (quiet : ¬ Shows (fun event => event.signal?.isSome) events) :
    signalsOf events = [] := by
  refine List.filterMap_eq_nil_iff.mpr fun event member => ?_
  exact Option.not_isSome_iff_eq_none.mp fun shown => quiet ⟨event, member, shown⟩

@[simp] theorem signalsOf_send (send : Send) (polled : SendPoll) : signalsOf (send.events polled) = [] :=
  signalsOf_quiet (shows_send (fun _ => rfl) (fun _ _ => rfl) send polled)

@[simp] theorem signalsOf_malformed (task : Task) (error : RecvError) : signalsOf (malformed task error) = [] :=
  signalsOf_quiet (shows_malformed (fun _ _ => rfl) task error)

/-! ## A selection -/

section
variable {ρ : Type} [MessageReader ρ] {pid : UInt32}

/-- What a selection of the exit task can come to while the child is there: the
kills it takes, the `wait`s that complete, and the turn. -/
inductive Relays (pid : UInt32) : List Kill → List (Except ArcErr Int32) → Turn ExitTask ρ → Prop
  | waits {process : Process} (rx : RxLocal ρ) : process.Unawaited pid →
      Relays pid [] [] ⟨.waiting process, rx, []⟩
  | relays {process : Process} (rx : RxLocal ρ) (kill : Kill) : process.Unawaited pid →
      Relays pid [kill] [] ⟨.waiting process, rx, [.signalled (relayed pid kill)]⟩
  | recvFailed (rx : RxLocal ρ) (error : RecvError) :
      Relays pid [] [] ⟨.ended (.error (.recv error)), rx,
        malformed .exit error ++ [.failed .exit (.recv error), .signalled (signalPid pid sigkill)]⟩
  | waitFailed (rx : RxLocal ρ) (error : ArcErr) :
      Relays pid [] [.error error] ⟨.ended (.error (.wait error)), rx, [.failed .exit (.wait error)]⟩
  | exits {process : Process} (rx : RxLocal ρ) (status : Int32) : process.drop.1 = [] →
      Relays pid [] [.ok status] ⟨.sending process (.sendAndFlush (.exited ⟨status⟩)), rx, []⟩

omit [MessageReader ρ] in
theorem handleKill_relays {process : Process} (unawaited : process.Unawaited pid) (rx : RxLocal ρ)
    (received : Except RecvError (Option Kill)) :
    Relays pid (delivered (.ready received)) [] (handleKill process.dropWait rx received) := by
  obtain ⟨locked, rfl⟩ := unawaited.form
  obtain error | _ | kill := received
  · exact .recvFailed rx error
  · exact .waits rx ⟨rfl, rfl⟩
  · exact .relays rx kill ⟨rfl, rfl⟩

omit [MessageReader ρ] in
theorem handleExit_relays {process : Process} (unawaited : process.Unawaited pid) (rx : RxLocal ρ)
    {answer : Poll (Except IoError Int32)} {result : Except ArcErr Int32} {process' : Process}
    (polled : process.pollWait answer = (.ready result, process')) :
    Relays pid [] [result] (handleExit process' rx result) := by
  obtain ⟨locked, rfl⟩ := unawaited.form
  obtain _ | error | status := answer
  · cases polled
  · cases polled
    exact .waitFailed rx _
  · cases polled
    exact .exits rx status rfl

theorem selectExit_relays {process : Process} (unawaited : process.Unawaited pid) (rx : RxLocal ρ)
    (killFirst : Bool) (answer : Poll (Except IoError Int32)) :
    Relays pid (ExitTask.kills (.waiting process) rx (.select killFirst answer))
      (ExitTask.waits (.waiting process) rx (.select killFirst answer)) (selectExit process rx killFirst answer) := by
  have still {process' : Process} (polled : process.pollWait answer = (.pending, process')) :
      process'.Unawaited pid := Process.pollWait_pending polled unawaited
  have exit {result : Except ArcErr Int32} {process' : Process} (rx : RxLocal ρ)
      (polled : process.pollWait answer = (.ready result, process')) :
      Relays pid [] [result] (handleExit process' rx result) := handleExit_relays unawaited rx polled
  dsimp only [ExitTask.kills, ExitTask.waits]
  unfold selectExit pollsKill pollsWait
  generalize rx.pollRecv Kill = received
  generalize process.pollWait answer = waited at still exit
  obtain ⟨_ | kill, rx'⟩ := received
  · obtain ⟨_ | result, process'⟩ := waited
    · cases killFirst <;> exact .waits rx' (still rfl)
    · cases killFirst with
      | true => exact exit rx' rfl
      | false => exact exit rx rfl
  · obtain ⟨_ | result, process'⟩ := waited
    · cases killFirst with
      | true => exact handleKill_relays unawaited rx' kill
      | false => exact handleKill_relays (still rfl) rx' kill
    · cases killFirst with
      | true => exact handleKill_relays unawaited rx' kill
      | false => exact exit rx rfl

end

/-! ## The story of the child -/

def Event.reportsExit : Event → Bool
  | .enqueued (.exited _) => true
  | _ => false

section
variable {pid : UInt32} {kills : List Kill} {waits : List (Except ArcErr Int32)} {events more : List Event}

theorem shows_reportsExit {exited : Exited} (reported : .enqueued (.exited exited) ∈ events) :
    Shows Event.reportsExit events :=
  ⟨_, reported, rfl⟩

theorem DoneBy.silent {task : Task} (done : DoneBy task more) (apart : task ≠ .exit) :
    ¬ Shows Event.reportsExit more := by
  rintro ⟨event, member, reports⟩
  obtain ⟨exited, rfl⟩ : ∃ exited, event = .enqueued (.exited exited) := by
    unfold Event.reportsExit at reports
    split at reports
    · exact ⟨_, rfl⟩
    · cases reports
  have enqueued : .exited exited ∈ logOf more := List.mem_filterMap.mpr ⟨_, member, rfl⟩
  exact apart (Option.some.inj (done.spoken _ enqueued)).symm

/-- The child goes on, and every kill has been relayed to it. -/
structure Open (pid : UInt32) (kills : List Kill) (waits : List (Except ArcErr Int32)) (events : List Event) :
    Prop where
  unawaited : waits = []
  sent : signalsOf events = kills.map (relayed pid)
  silent : ¬ Shows Event.reportsExit events

/-- Every kill was relayed, the drop of the handle may have killed the child,
and the exit that was reported is the result of the first `wait`. -/
structure Relayed (pid : UInt32) (kills : List Kill) (waits : List (Except ArcErr Int32)) (events : List Event) :
    Prop where
  own : signalsOf events ≠ [] → .spawned pid ∈ events
  sent : ∃ dropped, signalsOf events = kills.map (relayed pid) ++ dropped ∧
    (dropped = [] ∨ dropped = [signalPid pid sigkill])
  reported : ∀ exited, .enqueued (.exited exited) ∈ events → waits.head? = some (.ok exited.status)
  last : events.Pairwise fun earlier later => earlier.reportsExit = true → later.signal? = none

theorem Open.append_quiet (before : Open pid kills waits events) (quiet : signalsOf more = [])
    (silent : ¬ Shows Event.reportsExit more) : Open pid kills waits (events ++ more) where
  unawaited := before.unawaited
  sent := by rw [signalsOf_append, quiet, List.append_nil, before.sent]
  silent shown := (shows_append _ _).mp shown |>.elim before.silent silent

theorem Open.close {dropped : List Signal} (before : Open pid kills waits events)
    (own : signalsOf (events ++ more) ≠ [] → .spawned pid ∈ events) (sent : signalsOf more = dropped)
    (drops : dropped = [] ∨ dropped = [signalPid pid sigkill]) (silent : ¬ Shows Event.reportsExit more)
    (results : List (Except ArcErr Int32)) : Relayed pid kills results (events ++ more) := by
  have unreported : ¬ Shows Event.reportsExit (events ++ more) := fun shown =>
    (shows_append _ _).mp shown |>.elim before.silent silent
  refine ⟨fun some => List.mem_append_left more (own some), ⟨dropped, ?_, drops⟩, fun exited member => ?_, ?_⟩
  · rw [signalsOf_append, before.sent, sent]
  · exact absurd (shows_reportsExit member) unreported
  · refine List.pairwise_of_forall_mem_list fun earlier member _ _ reports => ?_
    exact absurd ⟨earlier, member, reports⟩ unreported

theorem Relayed.append_quiet (before : Relayed pid kills waits events) (quiet : signalsOf more = [])
    (reports : ∀ exited, .enqueued (.exited exited) ∈ more → waits.head? = some (.ok exited.status)) :
    Relayed pid kills waits (events ++ more) := by
  have same : signalsOf (events ++ more) = signalsOf events := by
    rw [signalsOf_append, quiet, List.append_nil]
  have none : ∀ event ∈ more, event.signal? = none := List.filterMap_eq_nil_iff.mp quiet
  refine ⟨fun some => ?_, same ▸ before.sent, fun exited member => ?_, ?_⟩
  · exact List.mem_append_left more (before.own (same ▸ some))
  · exact (List.mem_append.mp member).elim (before.reported exited) (reports exited)
  · refine List.pairwise_append.mpr ⟨before.last, ?_, fun _ _ later member _ => none later member⟩
    exact List.pairwise_of_forall_mem_list fun _ _ later member _ => none later member

theorem Relayed.append_silent (before : Relayed pid kills waits events) (quiet : signalsOf more = [])
    (silent : ¬ Shows Event.reportsExit more) : Relayed pid kills waits (events ++ more) :=
  before.append_quiet quiet fun _ member => absurd (shows_reportsExit member) silent

structure Sends (pid : UInt32) (kills : List Kill) (waits : List (Except ArcErr Int32)) (events more : List Event) :
    Prop where
  unreaped : signalsOf more ≠ [] → Unreaped waits
  each : ∀ kill ∈ kills, .spawned pid ∈ events ∧ signalsOf more = [relayed pid kill]

theorem sends_quiet (quiet : signalsOf more = []) : Sends pid [] waits events more where
  unreaped sent := absurd quiet sent
  each := nofun

end

/-! ## The exit task -/

section
variable {ρ : Type} [MessageReader ρ] {pid : UInt32} {kills : List Kill} {waits : List (Except ArcErr Int32)}
  {events : List Event}

def ExitTask.Told (pid : UInt32) (kills : List Kill) (waits : List (Except ArcErr Int32)) (events : List Event) :
    ExitTask → Prop
  | .waiting process => .spawned pid ∈ events ∧ process.Unawaited pid ∧ Open pid kills waits events
  | .sending process send =>
    process.drop.1 = [] ∧ (∃ status, send.msg = .exited ⟨status⟩ ∧ waits = [.ok status]) ∧
      Relayed pid kills waits events
  | .ended _ => Relayed pid kills waits events

theorem ExitTask.Told.relayed {task : ExitTask} (told : task.Told pid kills waits events) :
    Relayed pid kills waits events := by
  cases task with
  | waiting process =>
    obtain ⟨spawned, -, before⟩ := told
    have closed : Relayed pid kills waits (events ++ []) :=
      before.close (fun _ => spawned) rfl (.inl rfl) shows_nil waits
    exact (List.append_nil events) ▸ closed
  | sending process send => exact told.2.2
  | ended result => exact told

omit [MessageReader ρ] in
theorem Relays.told {process : Process} {taken : List Kill} {results : List (Except ArcErr Int32)}
    {turned : Turn ExitTask ρ} (relays : Relays pid taken results turned)
    (told : (ExitTask.waiting process).Told pid kills waits events) :
    turned.task.Told pid (kills ++ taken) (waits ++ results) (events ++ turned.events) ∧
      Sends pid taken (waits ++ results) events turned.events := by
  obtain ⟨spawned, -, before⟩ := told
  have unawaited := before.unawaited
  cases relays with
  | waits rx unreaped =>
    simp only [List.append_nil]
    exact ⟨⟨spawned, unreaped, before⟩, sends_quiet rfl⟩
  | relays rx kill unreaped =>
    refine ⟨⟨List.mem_append_left _ spawned, unreaped, ?_, ?_, ?_⟩, fun _ => ?_, fun other member => ?_⟩
    · rw [List.append_nil, unawaited]
    · rw [signalsOf_append, before.sent, List.map_append]
      rfl
    · rw [shows_append, not_or]
      exact ⟨before.silent, by simp [Event.reportsExit]⟩
    · rw [List.append_nil, unawaited]
      exact fun _ => List.not_mem_nil
    · cases List.mem_singleton.mp member
      exact ⟨spawned, rfl⟩
  -- The task drops the handle when it fails, which kills the child.
  | recvFailed rx error =>
    have sent : signalsOf (malformed .exit error ++ [.failed .exit (.recv error), .signalled (signalPid pid sigkill)]) =
        [signalPid pid sigkill] := by
      rw [signalsOf_append, signalsOf_malformed]
      rfl
    have silent : ¬ Shows Event.reportsExit
        (malformed .exit error ++ [.failed .exit (.recv error), .signalled (signalPid pid sigkill)]) := by
      rw [shows_append, not_or]
      exact ⟨shows_malformed (fun _ _ => rfl) _ _, by simp [Event.reportsExit]⟩
    simp only [List.append_nil]
    refine ⟨before.close (fun _ => spawned) sent (.inr rfl) silent waits, fun _ => ?_, nofun⟩
    rw [unawaited]
    exact fun _ => List.not_mem_nil
  -- The wait has failed for good, so the drop signals nobody.
  | waitFailed rx error =>
    rw [List.append_nil]
    exact ⟨before.close (fun _ => spawned) rfl (.inl rfl) (by simp [Event.reportsExit]) _, sends_quiet rfl⟩
  | exits rx status reaped =>
    have closed : Relayed pid kills [.ok status] (events ++ []) :=
      before.close (fun _ => spawned) rfl (.inl rfl) shows_nil [.ok status]
    rw [List.append_nil, unawaited]
    exact ⟨⟨reaped, ⟨status, rfl, rfl⟩, closed⟩, sends_quiet rfl⟩

theorem ExitTask.Told.send {process : Process} {send : Send} {more : List Event}
    (told : (ExitTask.sending process send).Told pid kills waits events) (polled : SendPoll)
    (quiet : signalsOf more = [])
    (reports : ∀ exited, .enqueued (.exited exited) ∈ more → .exited exited ∈ send.newly polled) :
    Relayed pid kills waits (events ++ more) := by
  obtain ⟨-, ⟨status, sends, same⟩, before⟩ := told
  refine before.append_quiet quiet fun exited member => ?_
  have enqueued := reports exited member
  unfold Send.newly at enqueued
  split at enqueued
  · rw [sends] at enqueued
    cases List.mem_singleton.mp enqueued
    rw [same]
    rfl
  · cases enqueued

omit [MessageReader ρ] in
theorem endExit_quiet {process : Process} (reaped : process.drop.1 = []) (rx : RxLocal ρ) {events : List Event}
    (quiet : signalsOf events = []) (result : Ending) : signalsOf (endExit process rx events result).events = [] := by
  rw [endExit, signalsOf_append, quiet, reaped]
  obtain error | _ := result <;> rfl

omit [MessageReader ρ] in
theorem endExit_reports {process : Process} {rx : RxLocal ρ} {events : List Event} {result : Ending}
    {exited : Exited} (member : .enqueued (.exited exited) ∈ (endExit process rx events result).events) :
    .enqueued (.exited exited) ∈ events := by
  rcases List.mem_append.mp member with before | after
  · exact before
  · rcases List.mem_cons.mp after with ends | signalled
    · obtain error | _ := result <;> cases ends
    · obtain ⟨signal, -, same⟩ := List.mem_map.mp signalled
      cases same

theorem enqueued_send {send : Send} {polled : SendPoll} {msg : Message}
    (member : .enqueued msg ∈ send.events polled) : msg ∈ send.newly polled := by
  rw [← logOf_send]
  exact List.mem_filterMap.mpr ⟨_, member, rfl⟩

theorem ExitTask.Told.turn {task : ExitTask} {rx : RxLocal ρ} {turn : ExitTurn} {turned : Turn ExitTask ρ}
    (told : task.Told pid kills waits events) (moved : task.step rx turn = some turned) :
    turned.task.Told pid (kills ++ task.kills rx turn) (waits ++ task.waits rx turn) (events ++ turned.events) ∧
      Sends pid (task.kills rx turn) (waits ++ task.waits rx turn) events turned.events := by
  cases ExitTask.step_turned moved with
  | select process killFirst answer => exact (selectExit_relays told.2.1 rx killFirst answer).told told
  | sends process send takes =>
    simp only [ExitTask.kills, ExitTask.waits, List.append_nil]
    have after := told.send (.pending takes) (signalsOf_send send _) fun _ member => enqueued_send member
    exact ⟨⟨told.1, told.2.1, after⟩, sends_quiet (signalsOf_send send _)⟩
  | sendFailed process send takes error =>
    simp only [ExitTask.kills, ExitTask.waits, List.append_nil]
    have quiet := endExit_quiet told.1 rx (signalsOf_send send (.failed takes error)) (.error (.send error))
    exact ⟨told.send (.failed takes error) quiet fun _ member => enqueued_send (endExit_reports member),
      sends_quiet quiet⟩
  | sent process send =>
    simp only [ExitTask.kills, ExitTask.waits, List.append_nil]
    have quiet := endExit_quiet told.1 rx (signalsOf_send send .sent) (.ok ())
    exact ⟨told.send .sent quiet fun _ member => enqueued_send (endExit_reports member), sends_quiet quiet⟩

theorem ExitTask.Told.append_silent {task : ExitTask} {more : List Event} (told : task.Told pid kills waits events)
    (quiet : signalsOf more = []) (silent : ¬ Shows Event.reportsExit more) :
    task.Told pid kills waits (events ++ more) := by
  cases task with
  | waiting process =>
    obtain ⟨spawned, unawaited, before⟩ := told
    exact ⟨List.mem_append_left more spawned, unawaited, before.append_quiet quiet silent⟩
  | sending process send => exact ⟨told.1, told.2.1, told.2.2.append_silent quiet silent⟩
  | ended result => exact Relayed.append_silent told quiet silent

end

/-! ## The agent -/

section
variable {ρ : Type} [MessageReader ρ] {pid : UInt32} {kills : List Kill} {waits : List (Except ArcErr Int32)}
  {events more : List Event}

theorem StdinMove.quiet {task task' : StdinTask} (move : StdinMove task more task') : signalsOf more = [] := by
  cases move with
  | recvWaits | data | closes | wrote | writeWaits | writes | writeFailed => rfl
  | recvFailed error =>
    rw [signalsOf_append, signalsOf_malformed]
    rfl
  | sends takes => exact signalsOf_send _ _
  | sent | sendFailed takes error =>
    rw [signalsOf_append, signalsOf_send]
    rfl

theorem OutputMove.quiet {output : Output} {rx : RxLocal ρ} {task task' : OutputTask}
    (move : OutputMove output rx task more task') : signalsOf more = [] := by
  have quiet {heard : List Event} (overhears : Overhears output rx heard) : signalsOf heard = [] :=
    signalsOf_quiet (overhears.shows fun _ _ => rfl)
  cases move with
  | waits pipe' disabled' same overhears => exact quiet overhears
  | data pipe' bytes same overhears => exact quiet overhears
  | eof opened overhears => exact quiet overhears
  | readFailed error overhears =>
    rw [signalsOf_append, quiet overhears]
    rfl
  | close pipe' buffer opened closed => rfl
  | closeAgain buffer errno closed => rfl
  | sends takes | finishes takes => exact signalsOf_send _ _
  | sent => exact signalsOf_send _ _
  | sendFailed takes error | finished | finishFailed takes error =>
    rw [signalsOf_append, signalsOf_send]
    rfl

/-- How far the story of the child has come in each phase. -/
def Phase.Told (pid : UInt32) (kills : List Kill) (waits : List (Except ArcErr Int32)) (events : List Event) :
    Phase → Prop
  | .receiving | .spawning _ => kills = [] ∧ Open pid kills waits events
  | .starting _ process _ _ => .spawned pid ∈ events ∧ process.Unawaited pid ∧ Open pid kills waits events
  | .running tasks => tasks.exit.Told pid kills waits events
  | .failing _ _ | .closing _ | .done _ => Relayed pid kills waits events

theorem Phase.Told.append_silent {phase : Phase} (told : phase.Told pid kills waits events)
    (quiet : signalsOf more = []) (silent : ¬ Shows Event.reportsExit more) :
    phase.Told pid kills waits (events ++ more) := by
  cases phase with
  | receiving | spawning exec => exact ⟨told.1, told.2.append_quiet quiet silent⟩
  | starting lineBuffered process child send =>
    obtain ⟨spawned, unawaited, before⟩ := told
    exact ⟨List.mem_append_left more spawned, unawaited, before.append_quiet quiet silent⟩
  | running tasks => exact ExitTask.Told.append_silent told quiet silent
  | failing error send | closing status | done status => exact Relayed.append_silent told quiet silent

theorem Phase.Told.relayed {phase : Phase} (told : phase.Told pid kills waits events) :
    Relayed pid kills waits events := by
  have none {events : List Event} (before : Open pid [] waits events) : Relayed pid [] waits events := by
    have closed : Relayed pid [] waits (events ++ []) :=
      before.close (fun some => absurd (by rw [List.append_nil, before.sent]; rfl) some) rfl (.inl rfl) shows_nil waits
    exact (List.append_nil events) ▸ closed
  cases phase with
  | receiving | spawning exec =>
    obtain ⟨rfl, before⟩ := told
    exact none before
  | starting lineBuffered process child send =>
    have waiting : (ExitTask.waiting process).Told pid kills waits events := told
    exact waiting.relayed
  | running tasks => exact ExitTask.Told.relayed told
  | failing error send | closing status | done status => exact told

end

section
variable {ρ : Type} [MessageReader ρ] {pid : UInt32} {kills : List Kill} {waits : List (Except ArcErr Int32)}
  {s t : Agent ρ} {action : Action} {more : List Event}

theorem killsTaken_apart (apart : action.task ≠ .exit) (s : Agent ρ) : killsTaken s action = [] := by
  unfold killsTaken
  split
  · exact absurd rfl apart
  · rfl

theorem waitsOver_apart (apart : action.task ≠ .exit) (s : Agent ρ) : waitsOver s action = [] := by
  unfold waitsOver
  split
  · exact absurd rfl apart
  · rfl

theorem AgentMove.silent (move : AgentMove s action t) (said : Converses s.events s.phase)
    (apart : action.task ≠ .exit) (grown : t.events = s.events ++ more) : ¬ Shows Event.reportsExit more := by
  obtain ⟨others, grew, done⟩ := move.doneBy said
  rw [List.append_cancel_left (grown.symm.trans grew)]
  exact done.silent apart

def Carries (kills : List Kill) (waits : List (Except ArcErr Int32)) (s : Agent ρ) (action : Action) (t : Agent ρ) :
    Prop :=
  ∃ pid more, t.events = s.events ++ more ∧
    t.phase.Told pid (kills ++ killsTaken s action) (waits ++ waitsOver s action) t.events ∧
    Sends pid (killsTaken s action) (waits ++ waitsOver s action) s.events more

theorem Carries.of_apart (apart : action.task ≠ .exit) (grown : t.events = s.events ++ more)
    (told : t.phase.Told pid kills waits t.events) (sends : Sends pid [] waits s.events more) :
    Carries kills waits s action t := by
  unfold Carries
  rw [killsTaken_apart apart, waitsOver_apart apart, List.append_nil, List.append_nil]
  exact ⟨pid, more, grown, told, sends⟩

theorem AgentMove.carries (move : AgentMove s action t) (said : Converses s.events s.phase)
    (told : s.phase.Told pid kills waits s.events) : Carries kills waits s action t := by
  have silent {more : List Event} (apart : action.task ≠ .exit) (grown : t.events = s.events ++ more) :
      ¬ Shows Event.reportsExit more := move.silent said apart grown
  -- Every step but the exit task's leaves the story where it is.
  have aside {more : List Event} (apart : action.task ≠ .exit) (grown : t.events = s.events ++ more)
      (quiet : signalsOf more = [])
      (onward : ∀ events, s.phase.Told pid kills waits events → t.phase.Told pid kills waits events) :
      Carries kills waits s action t := by
    have after : t.phase.Told pid kills waits t.events := by
      rw [grown]
      exact onward _ (told.append_silent quiet (silent apart grown))
    exact .of_apart apart grown after (sends_quiet quiet)
  cases move with
  | receives rx phase => exact aside nofun (List.append_nil s.events).symm rfl fun _ same => same
  | refuses rx error phase => exact aside nofun rfl (signalsOf_malformed _ _) fun _ => Phase.Told.relayed
  | disconnected | spawnFailed | joined | joinFailed | closes => exact aside nofun rfl rfl fun _ => Phase.Told.relayed
  | requested rx exec phase =>
    rw [phase] at aside
    exact aside nofun rfl rfl fun _ same => same
  | @spawned exec child phase =>
    rw [phase] at told
    obtain ⟨rfl, before⟩ := told
    have again : Open child.pid [] waits s.events := ⟨before.unawaited, before.sent, before.silent⟩
    refine .of_apart nofun rfl ⟨List.mem_append_right _ (List.mem_singleton_self _), ?_, ?_⟩ (sends_quiet rfl)
    · exact Process.unawaited_spawned child.pid
    · exact again.append_quiet rfl (silent nofun rfl)
  | @starts lineBuffered process child send takes phase =>
    rw [phase] at aside
    exact aside nofun rfl (signalsOf_send _ _) fun _ same => same
  | @started lineBuffered process child send phase =>
    rw [phase] at aside
    exact aside nofun rfl (signalsOf_send _ _) fun _ same => same
  -- The handle is dropped with the child still unawaited, and kills it.
  | @startFailed lineBuffered process child send takes error phase =>
    rw [phase] at told
    obtain ⟨spawned, unawaited, before⟩ := told
    have sent : signalsOf (send.events (.failed takes error) ++ process.drop.1.map .signalled) =
        process.drop.1 := by
      rw [signalsOf_append, signalsOf_send, signalsOf_signalled]
      rfl
    have drops : process.drop.1 = [signalPid pid sigkill] := Process.drop_kills unawaited
    refine .of_apart nofun rfl (before.close (fun _ => spawned) sent (.inr drops) (silent nofun rfl) waits) ⟨?_, nofun⟩
    rw [before.unawaited]
    exact fun _ _ => List.not_mem_nil
  | @exit tasks turn turned phase allowed stepped =>
    rw [phase] at told
    have kills' : killsTaken s (.exit turn) = tasks.exit.kills s.rx turn := by simp only [killsTaken, phase]
    have waits' : waitsOver s (.exit turn) = tasks.exit.waits s.rx turn := by simp only [waitsOver, phase]
    unfold Carries
    rw [kills', waits']
    exact ⟨pid, _, rfl, ExitTask.Told.turn told stepped⟩
  | @stdin tasks turn turned phase stepped =>
    rw [phase] at aside
    exact aside nofun rfl (StdinTask.step_move stepped).quiet fun _ same => same
  | @output tasks output turn turned phase stepped =>
    rw [phase] at aside
    refine aside nofun rfl (OutputTask.step_move stepped).quiet fun _ before => ?_
    have same := Tasks.setOutput_exit tasks turned.task output
    exact (congrArg (ExitTask.Told pid kills waits _) same).mpr before
  | reports takes phase => exact aside nofun rfl (signalsOf_send _ _) fun _ => Phase.Told.relayed
  | reported phase => exact aside nofun rfl (signalsOf_send _ _) fun _ => Phase.Told.relayed
  | reportFailed takes cause phase => exact aside nofun rfl (signalsOf_send _ _) fun _ => Phase.Told.relayed
  | childExits status alive => exact aside nofun rfl rfl fun _ same => same

/-- The kills that the exit task takes in a run. -/
abbrev allKills (reader : ρ) : List Action → List Kill := gather Agent.step killsTaken (.new reader)

/-- The results of the `wait`s that complete in a run. -/
abbrev allWaits (reader : ρ) : List Action → List (Except ArcErr Int32) := gather Agent.step waitsOver (.new reader)

theorem told_run {reader : ρ} {actions : List Action} {s : Agent ρ}
    (run : execute Agent.step (.new reader) actions = some s) :
    ∃ pid, s.phase.Told pid (allKills reader actions) (allWaits reader actions) s.events := by
  refine invariant_labels (fun actions (s : Agent ρ) =>
    ∃ pid, s.phase.Told pid (allKills reader actions) (allWaits reader actions) s.events) ?_ ?_ run
  · rintro actions s action t reached ⟨pid, told⟩ moved
    obtain ⟨pid', more, -, after, -⟩ := (Agent.step_move moved).carries (converses_run reached) told
    unfold allKills allWaits
    rw [gather_snoc reached moved, gather_snoc reached moved]
    exact ⟨pid', after⟩
  · exact ⟨0, rfl, rfl, rfl, shows_nil⟩

theorem sends_step {reader : ρ} {actions : List Action} (run : execute Agent.step (.new reader) actions = some s)
    (moved : s.step action = some t) :
    ∃ pid more, t.events = s.events ++ more ∧
      Sends pid (killsTaken s action) (allWaits reader (actions ++ [action])) s.events more := by
  obtain ⟨pid, told⟩ := told_run run
  obtain ⟨pid', more, grown, -, sends⟩ := (Agent.step_move moved).carries (converses_run run) told
  refine ⟨pid', more, grown, ?_⟩
  unfold allWaits
  rw [gather_snoc run moved]
  exact sends

/-- In every run a signal is sent only while the child has not been reaped, each
kill that is taken sends one at once, and none follows the exit message. This
message gives the result of the first `wait`, as do all that come after it. -/
theorem kills_reach_child (reader : ρ) (actions : List Action) (s : Agent ρ)
    (run : execute Agent.step (.new reader) actions = some s) :
    (∀ first action rest t u, actions = first ++ action :: rest →
      execute Agent.step (.new reader) first = some t → t.step action = some u →
      ∃ pid more, u.events = t.events ++ more ∧
        (signalsOf more ≠ [] → Unreaped (allWaits reader (first ++ [action]))) ∧
        ∀ kill ∈ killsTaken t action, .spawned pid ∈ t.events ∧ signalsOf more = [relayed pid kill]) ∧
    (∃ pid dropped, (signalsOf s.events ≠ [] → .spawned pid ∈ s.events) ∧
      signalsOf s.events = (allKills reader actions).map (relayed pid) ++ dropped ∧
      (dropped = [] ∨ dropped = [signalPid pid sigkill])) ∧
    (s.events.Pairwise fun earlier later => earlier.reportsExit = true → later.signal? = none) ∧
    (∀ exited, .enqueued (.exited exited) ∈ s.events →
      (allWaits reader actions).head? = some (.ok exited.status)) ∧
    ∀ pid steps handle, execute Handle.step (.spawned pid) steps = some handle →
      ∀ result ∈ handle.results, handle.results.head? = some result := by
  obtain ⟨pid, told⟩ := told_run run
  have relayed := told.relayed
  refine ⟨?_, ?_, relayed.last, relayed.reported, ?_⟩
  · intro first action rest t u _ reached moved
    obtain ⟨pid, more, grown, sends⟩ := sends_step reached moved
    exact ⟨pid, more, grown, sends.unreaped, sends.each⟩
  · obtain ⟨dropped, sent, drops⟩ := relayed.sent
    exact ⟨pid, dropped, relayed.own, sent, drops⟩
  · intro pid steps handle handled result given
    exact Handle.results_agree handled given

end

/-- The host sends two signals, one of which does not exist. -/
def relaying : List Action :=
  [.receive, .spawn (.ok ⟨7, [], []⟩), .start .sent, .exit (.select false .pending), .exit (.select true .pending),
    .childExits 9, .exit (.select false (.ready (.ok 9))), .exit (.send .sent)]

theorem kills_reach_child_twice :
    ∃ s : Agent Connection, signalsOf s.events = [⟨7, 15⟩, ⟨7, 9⟩] ∧
      (s.events.Pairwise fun earlier later => earlier.reportsExit = true → later.signal? = none) ∧
      ∀ exited, .enqueued (.exited exited) ∈ s.events →
        (allWaits (⟨messageLines [.exec (request "cat"), .kill ⟨15⟩, .kill ⟨99⟩]⟩ : Connection) relaying).head? =
          some (.ok exited.status) := by
  have completes : (execute Agent.step
      (.new (⟨messageLines [.exec (request "cat"), .kill ⟨15⟩, .kill ⟨99⟩]⟩ : Connection)) relaying).map
      (fun s => signalsOf s.events) = some [⟨7, 15⟩, ⟨7, 9⟩] := by decide +kernel
  obtain ⟨s, run, sent⟩ := Option.map_eq_some_iff.mp completes
  obtain ⟨-, -, last, reported, -⟩ := kills_reach_child _ relaying s run
  exact ⟨s, sent, last, reported⟩

end MinimalVm.Agent
