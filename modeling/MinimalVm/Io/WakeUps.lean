import MinimalVm.Io.LineParser
import MinimalVm.Io.Receive
import MinimalVm.Semantics.Execution

/-! Tasks that wait for messages on clones of one receiving end.

The reader keeps the waker of the last task it told to wait, and the queue of
passed-over messages keeps none. A task that reads a message for another task
puts it in the queue without waking anyone, so the other task may sleep beside
its own message. This is the only way a wake-up is missed.
-/

set_option autoImplicit false

namespace MinimalVm.Io

open MinimalVm.Semantics MinimalVm.Protocol MinimalVm.Text

/-- A task polls its receive at first and when it is woken. -/
inductive TaskState where
  | idle
  | scheduled (receiver : Receiver)
  | parked (receiver : Receiver)
  deriving DecidableEq

def TaskState.receiver? : TaskState → Option Receiver
  | .idle => none
  | .scheduled receiver | .parked receiver => some receiver

structure Tasks (parse : Bytes → Except ParseError Message) where
  rx : RxLocal (MsgReader parse)
  states : List TaskState
  waker : Option Nat

inductive TaskStep where
  | recv (task : Nat) (receiver : Receiver)
  | poll (task : Nat)
  | wake
  | drop (task : Nat)

namespace Tasks

variable {parse : Bytes → Except ParseError Message}

def new (reader : List ReadEvent) (tasks : Nat) : Tasks parse :=
  ⟨.new (.new reader), List.replicate tasks .idle, none⟩

/-- The reader tells whoever polled it last to wait. -/
def pollTask (this : Tasks parse) (task : Nat) (receiver : Receiver) : Tasks parse :=
  let polled := this.rx.pollRecv receiver.Carrier
  { rx := polled.2
    states := this.states.set task (if polled.1.isPending then .parked receiver else .idle)
    waker := if polled.1.isPending then some task else this.waker }

def step (this : Tasks parse) : TaskStep → Option (Tasks parse)
  | .recv task receiver =>
    if this.states[task]? = some .idle then
      some { this with states := this.states.set task (.scheduled receiver) }
    else none
  | .poll task => (this.states[task]?.bind TaskState.receiver?).map (this.pollTask task)
  | .wake =>
    match this.waker with
    | none => none
    | some task =>
      match this.states[task]? with
      | some (.parked receiver) =>
        some { this with states := this.states.set task (.scheduled receiver), waker := none }
      -- The task is no longer parked, but the waker is spent all the same.
      | _ => some { this with waker := none }
  | .drop task =>
    if task < this.states.length then some { this with states := this.states.set task .idle } else none

end Tasks

/-- The messages that a poll reads and refuses, when nothing in the queue is accepted. -/
def passedOver (M : Type) [FromMessage M] : List ConnectionEvent → List Message
  | .line (.ok msg) :: rest => if Accepts M msg then [] else msg :: passedOver M rest
  | .line (.error _) :: _ | .pending :: _ | .failed _ :: _ | [] => []

variable {parse : Bytes → Except ParseError Message}

/-- No task is parked beside a message it waits for. -/
def NoneMissed (s : Tasks parse) : Prop :=
  ∀ (task : Nat) (receiver : Receiver), s.states[task]? = some (.parked receiver) →
    Refused receiver.Carrier s.rx.msgs.queue

/-- A poll that reads past no message for which another task is parked. -/
def PassesNone (s : Tasks parse) : TaskStep → Prop
  | .poll task => ∀ receiver, s.states[task]?.bind TaskState.receiver? = some receiver →
      Refused receiver.Carrier s.rx.msgs.queue →
      ∀ other, other ≠ task → ∀ waiting : Receiver, s.states[other]? = some (.parked waiting) →
        Refused waiting.Carrier (passedOver receiver.Carrier s.rx.toLines.reader.events)
  | .recv _ _ | .wake | .drop _ => True

theorem passedOver_read {M : Type} [FromMessage M] {passed : List Message} {last rest : List ConnectionEvent}
    {outcome : PollRecv M} (beyond : Refused M passed) (ended : Ended M last outcome rest) :
    passedOver M (messageLines passed ++ last) = passed := by
  induction passed with
  | nil =>
    cases ended with
    | message converted => simp [passedOver, accepts_of_ok converted]
    | pending | eof | failed | malformed => rfl
  | cons msg passed ih =>
    have refused := beyond msg List.mem_cons_self
    simp [passedOver, refused, ih fun other member => beyond other (List.mem_cons_of_mem msg member)]

/-- What one poll does to the queue, and whether it may be pending: it takes a
message out, or adds those it read past. -/
inductive QueueChange (M : Type) [FromMessage M] (before : RxLocal Connection) :
    Bool → List Message → Prop
  | taken {first rest : List Message} {msg : Message} : before.msgs.queue = first ++ msg :: rest →
      Accepts M msg = true → QueueChange M before false (first ++ rest)
  | passed {pending : Bool} : Refused M before.msgs.queue →
      Refused M (passedOver M before.reader.events) →
      QueueChange M before pending (before.msgs.queue ++ passedOver M before.reader.events)

theorem Received.queueChange {M : Type} [FromMessage M] {before after : RxLocal Connection}
    {outcome : PollRecv M} (received : Received M before (outcome, after)) :
    QueueChange M before outcome.isPending after.msgs.queue := by
  cases received with
  | queued skipped converted => exact .taken rfl (accepts_of_ok converted)
  | @read queue passed last rest _ skipped beyond ended =>
    have same := passedOver_read beyond ended
    have change : QueueChange M ⟨⟨messageLines passed ++ last⟩, ⟨queue⟩⟩ outcome.isPending
        (queue ++ passedOver M (messageLines passed ++ last)) := .passed skipped (same.symm ▸ beyond)
    rwa [same] at change

theorem RxLocal.pollRecv_queueChange {M : Type} [FromMessage M] [LawfulFromMessage M]
    (this : RxLocal (MsgReader parse)) :
    QueueChange M this.toLines (this.pollRecv M).1.isPending (this.pollRecv M).2.msgs.queue := by
  have received := pollRecv_received (M := M) this.toLines
  rw [pollRecv_toLines] at received
  exact received.queueChange

theorem not_refused {M : Type} [FromMessage M] {first rest : List Message} {msg : Message}
    (accepted : Accepts M msg = true) : ¬ Refused M (first ++ msg :: rest) := fun refused =>
  absurd (refused msg (by simp)) (by simp [accepted])

theorem pollTask_self {s : Tasks parse} {task : Nat} {receiver waiting : Receiver}
    (parked : (s.pollTask task receiver).states[task]? = some (.parked waiting)) :
    waiting = receiver ∧ (s.rx.pollRecv receiver.Carrier).1.isPending = true := by
  rw [Tasks.pollTask, List.getElem?_set, if_pos rfl] at parked
  split at parked
  · split at parked
    · rename_i pending
      cases parked
      exact ⟨rfl, pending⟩
    · cases parked
  · cases parked

/-- A poll leaves every task awake beside its messages exactly if it passes none. -/
theorem pollTask_exact {s : Tasks parse} {task : Nat} {receiver : Receiver} (kept : NoneMissed s)
    (polls : s.states[task]?.bind TaskState.receiver? = some receiver) :
    NoneMissed (s.pollTask task receiver) ↔ PassesNone s (.poll task) := by
  have others {other : Nat} (apart : other ≠ task) :
      (s.pollTask task receiver).states[other]? = s.states[other]? :=
    List.getElem?_set_ne apart.symm
  have change := s.rx.pollRecv_queueChange (M := receiver.Carrier)
  constructor
  · intro after receiver' polls' refused other apart waiting parked
    cases polls.symm.trans polls'
    have quiet : Refused waiting.Carrier (s.rx.pollRecv receiver.Carrier).2.msgs.queue :=
      after other waiting ((others apart).trans parked)
    generalize (s.rx.pollRecv receiver.Carrier).1.isPending = pending at change
    generalize (s.rx.pollRecv receiver.Carrier).2.msgs.queue = queue at change quiet
    cases change with
    | taken split accepted =>
      have same : s.rx.msgs.queue = _ := split
      exact absurd (same ▸ refused) (not_refused accepted)
    | passed _ _ => exact (refused_append.mp quiet).2
  · intro passes other waiting parked
    show Refused waiting.Carrier (s.rx.pollRecv receiver.Carrier).2.msgs.queue
    by_cases same : other = task
    · subst same
      obtain ⟨rfl, pending⟩ := pollTask_self parked
      rw [pending] at change
      generalize (s.rx.pollRecv waiting.Carrier).2.msgs.queue = queue at change
      cases change with
      | passed skipped beyond => exact refused_append.mpr ⟨skipped, beyond⟩
    · have before := (others same).symm.trans parked
      have quiet := kept other waiting before
      generalize (s.rx.pollRecv receiver.Carrier).1.isPending = pending at change
      generalize (s.rx.pollRecv receiver.Carrier).2.msgs.queue = queue at change
      -- A parked task keeps the queue it was parked beside, but for what is
      -- taken out of it and for what is read past.
      cases change with
      | taken split _ =>
        have queued : s.rx.msgs.queue = _ := split
        rw [queued, refused_append] at quiet
        exact refused_append.mpr ⟨quiet.1, fun msg member => quiet.2 msg (List.mem_cons_of_mem _ member)⟩
      | passed skipped _ =>
        exact refused_append.mpr ⟨quiet, passes receiver polls skipped other same waiting before⟩

theorem keeps_of_unparked {s t : Tasks parse} (kept : NoneMissed s) (queue : t.rx = s.rx)
    (unparked : ∀ (task : Nat) (receiver : Receiver), t.states[task]? = some (.parked receiver) →
      s.states[task]? = some (.parked receiver)) : NoneMissed t := fun task receiver parked =>
  queue ▸ kept task receiver (unparked task receiver parked)

theorem unparked_set {states : List TaskState} {changed : Nat} {state : TaskState}
    (awake : ∀ receiver, state ≠ .parked receiver) (task : Nat) (receiver : Receiver)
    (parked : (states.set changed state)[task]? = some (.parked receiver)) :
    states[task]? = some (.parked receiver) := by
  rw [List.getElem?_set] at parked
  split at parked
  · split at parked
    · exact absurd (Option.some.inj parked) (awake receiver)
    · cases parked
  · exact parked

theorem step_exact (s : Tasks parse) (label : TaskStep) (t : Tasks parse) (kept : NoneMissed s)
    (moved : s.step label = some t) : NoneMissed t ↔ PassesNone s label := by
  cases label with
  | recv task receiver =>
    simp only [Tasks.step] at moved
    split at moved <;> cases moved
    exact iff_of_true (keeps_of_unparked kept rfl (unparked_set nofun)) trivial
  | poll task =>
    obtain ⟨receiver, polls, rfl⟩ := Option.map_eq_some_iff.mp moved
    exact pollTask_exact kept polls
  | wake =>
    simp only [Tasks.step] at moved
    split at moved
    · cases moved
    · split at moved <;> cases moved
      · exact iff_of_true (keeps_of_unparked kept rfl (unparked_set nofun)) trivial
      · exact iff_of_true (keeps_of_unparked kept rfl fun _ _ parked => parked) trivial
  | drop task =>
    simp only [Tasks.step] at moved
    split at moved <;> cases moved
    exact iff_of_true (keeps_of_unparked kept rfl (unparked_set nofun)) trivial

theorem noneMissed_new (reader : List ReadEvent) (tasks : Nat) :
    NoneMissed (.new reader tasks : Tasks parse) := by
  intro task receiver parked
  simp [Tasks.new, List.getElem?_replicate] at parked

def killReader : List ReadEvent :=
  [.pending, .pending, .data ⟨Message.text (.kill ⟨9⟩) ++ [newline], by simp⟩, .pending]

/-- The second task is woken, reads the message past and parks again. The first
task still sleeps, and nothing will wake it. -/
def overtaken : List TaskStep := [.recv 0 .kill, .recv 1 .exited, .poll 0, .poll 1, .wake, .poll 1]

theorem overtaken_run :
    ∃ s : Tasks (parseWith (knownText [.kill ⟨9⟩])),
      execute Tasks.step (.new killReader 2) overtaken = some s ∧
        s.states = [.parked .kill, .parked .exited] ∧ s.waker = some 1 ∧
        s.rx.msgs.queue = [.kill ⟨9⟩] := by
  have completes : ((execute Tasks.step (.new killReader 2 : Tasks (parseWith (knownText [.kill ⟨9⟩])))
      overtaken).map fun s => (s.states, s.waker, s.rx.msgs.queue)) =
      some ([.parked .kill, .parked .exited], some 1, [.kill ⟨9⟩]) := by decide +kernel
  obtain ⟨s, run, reached⟩ := Option.map_eq_some_iff.mp completes
  exact ⟨s, run, by simpa using reached⟩

theorem not_noneMissed {s : Tasks parse} (states : s.states = [.parked .kill, .parked .exited])
    (queue : s.rx.msgs.queue = [.kill ⟨9⟩]) : ¬ NoneMissed s := fun kept => by
  have refused := kept 0 .kill (by rw [states]; rfl) (.kill ⟨9⟩) (by simp [queue])
  cases refused

theorem wake_up_missed :
    ∃ s : Tasks (parseWith (knownText [.kill ⟨9⟩])),
      execute Tasks.step (.new killReader 2) overtaken = some s ∧
        s.states[0]? = some (.parked .kill) ∧ s.waker = some 1 ∧ .kill ⟨9⟩ ∈ s.rx.msgs.queue ∧
        ¬ NoneMissed s := by
  obtain ⟨s, run, states, waker, queue⟩ := overtaken_run
  exact ⟨s, run, by rw [states]; rfl, waker, by simp [queue], not_noneMissed states queue⟩

/-- A task is never parked beside its message, in any state of a run, exactly
if no poll of the run reads past a message for which another task is parked. -/
theorem missed_wake_ups (parse : Bytes → Except ParseError Message) (reader : List ReadEvent) (tasks : Nat)
    (labels : List TaskStep) (s : Tasks parse) (run : execute Tasks.step (.new reader tasks) labels = some s) :
    Always Tasks.step NoneMissed (.new reader tasks : Tasks parse) labels ↔
      Throughout Tasks.step PassesNone (.new reader tasks : Tasks parse) labels :=
  always_iff_throughout step_exact (noneMissed_new reader tasks) run

theorem missed_wake_ups_kill :
    ¬ Throughout Tasks.step PassesNone
      (.new killReader 2 : Tasks (parseWith (knownText [.kill ⟨9⟩]))) overtaken := by
  obtain ⟨s, run, states, -, queue⟩ := overtaken_run
  rw [← missed_wake_ups _ killReader 2 overtaken s run]
  intro always
  exact not_noneMissed states queue (always overtaken [] s (List.append_nil _).symm run)

end MinimalVm.Io
