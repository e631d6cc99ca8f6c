import MinimalVm.Io.Closing
import MinimalVm.Io.Delivery

/-! How much can wait to be transmitted.

A message is appended only to a backlog below the limit, so the backlog never
exceeds the limit by more than the message appended last. Whoever sends next
waits until the backlog is below the limit again.
-/

set_option autoImplicit false

namespace MinimalVm.Io

open MinimalVm.Semantics MinimalVm.Protocol MinimalVm.Text

/-! ## One poll -/

namespace TxLocal

variable {σ : Type} (w : AsyncWrite σ)

theorem pushback_pos : 0 < pushback := by decide

theorem pollTransmit_shrinks (this : TxLocal σ) :
    (pollTransmit w this).2.transmitting.length ≤ this.transmitting.length := by
  fun_induction pollTransmit w this with
  | case1 | case2 | case3 | case4 => exact Nat.le_refl _
  | case5 this nonempty n writer polled positive ih =>
    simp only [List.length_drop] at ih
    omega

theorem pollFlush_shrinks (this : TxLocal σ) :
    (pollFlush w this).2.transmitting.length ≤ this.transmitting.length := by
  rw [pollFlush_eq]
  exact pollTransmit_shrinks w this

/-- A sender is told to go on by a complete flush or because the backlog is short. -/
theorem pollFlushInBg_eq (test : Bool) (this : TxLocal σ) :
    (pollFlushInBg w test this).2 = (pollFlush w this).2 ∧
      ((pollFlushInBg w test this).1 = .ready (.ok ()) →
        (pollFlush w this).1 = .ready (.ok ()) ∨
          ¬ (test = false ∧ pushback ≤ (pollFlush w this).2.transmitting.length)) := by
  unfold pollFlushInBg
  split
  · rename_i polled
    rw [polled]
    exact ⟨rfl, fun _ => .inl rfl⟩
  · rename_i polled
    rw [polled]
    exact ⟨rfl, nofun⟩
  · rename_i polled
    rw [polled]
    split
    · exact ⟨rfl, nofun⟩
    · rename_i short
      exact ⟨rfl, fun _ => .inr short⟩

theorem pollFlushInBg_shrinks (test : Bool) (this : TxLocal σ) :
    (pollFlushInBg w test this).2.transmitting.length ≤ this.transmitting.length := by
  rw [(pollFlushInBg_eq w test this).1]
  exact pollFlush_shrinks w this

theorem pollFlushInBg_below (this : TxLocal σ) (ready : (pollFlushInBg w false this).1 = .ready (.ok ())) :
    (pollFlushInBg w false this).2.transmitting.length < pushback := by
  obtain ⟨same, why⟩ := pollFlushInBg_eq w false this
  rw [same]
  rcases why ready with completed | short
  · rw [pollFlush_eq, pollTransmit_completed w this (pollFlush_completed w this completed).1]
    exact pushback_pos
  · simp only [true_and] at short
    omega

/-- What a poll of one message can do to the backlog: it appends nothing, or it
appends the message to a backlog below the limit. -/
inductive Pushed (this : TxLocal σ) (msg : Sending) : PollSend × TxLocal σ × Sending → Prop
  | kept {outcome : PollSend} {after : TxLocal σ} :
      after.transmitting.length ≤ this.transmitting.length → Pushed this msg (outcome, after, msg)
  | appended {bytes : Bytes} {opened : TxLocal σ} : msg.bytes = some bytes →
      pollFlushInBg w false this = (.ready (.ok ()), opened) → opened.transmitting.length < pushback →
      Pushed this msg
        ((pollFlushInBg w false ⟨opened.writer, opened.transmitting ++ frame bytes⟩).1,
          (pollFlushInBg w false ⟨opened.writer, opened.transmitting ++ frame bytes⟩).2, ⟨none⟩)

theorem pollSend_pushed (this : TxLocal σ) (msg : Sending) : Pushed w this msg (pollSend w false this msg) := by
  have shrinks := pollFlushInBg_shrinks w false this
  have below := pollFlushInBg_below w this
  unfold pollSend
  split
  · rename_i polled
    rw [polled] at shrinks
    exact .kept shrinks
  · rename_i polled
    rw [polled] at shrinks
    exact .kept shrinks
  · rename_i opened polled
    rw [polled] at shrinks below
    obtain ⟨none | bytes⟩ := msg
    · exact .kept (Nat.le_trans (pollFlushInBg_shrinks w false opened) shrinks)
    · dsimp only
      rw [List.append_assoc]
      exact .appended rfl polled (below rfl)

theorem pollSend_below (this : TxLocal σ) (msg : Sending)
    (completed : (pollSend w false this msg).1 = .ready (.ok ())) :
    (pollSend w false this msg).2.1.transmitting.length < pushback := by
  unfold pollSend at completed ⊢
  split at completed
  · cases completed
  · cases completed
  · exact pollFlushInBg_below w _ completed

end TxLocal

/-! ## One turn -/

def Tx.backlog {σ : Type} (this : Tx σ) : Nat :=
  match this.shared with
  | .ok tx => tx.transmitting.length
  | .error _ => 0

inductive Backlogged (before after : Nat) (untaken : List Bytes) : List Bytes → Prop
  | shrunk : after ≤ before → Backlogged before after untaken untaken
  | appended {bytes : Bytes} {left : List Bytes} : untaken = bytes :: left →
      after < TxLocal.pushback + (frame bytes).length → Backlogged before after untaken left

section
variable {σ : Type} (w : AsyncWrite σ)

theorem Tx.pollFlush_shrinks (this : Tx σ) : (this.pollFlush w).2.backlog ≤ this.backlog := by
  obtain ⟨error | tx⟩ := this
  · exact Nat.le_refl _
  · exact tx.pollFlush_shrinks w

theorem Tx.pollSend_backlogged (this : Tx σ) (msg : Sending) (rest : List Bytes) :
    Backlogged this.backlog (this.pollSend w false msg).2.1.backlog (msg.payloads ++ rest)
      ((this.pollSend w false msg).2.2.payloads ++ rest) := by
  obtain ⟨error | tx⟩ := this
  · exact .shrunk (Nat.le_refl _)
  · have pushed := tx.pollSend_pushed w msg
    simp only [pollSend, backlog]
    generalize tx.pollSend w false msg = result at pushed
    cases pushed with
    | kept shrinks => exact .shrunk shrinks
    | @appended bytes opened whole _ below =>
      obtain ⟨_⟩ := msg
      cases whole
      refine @Backlogged.appended _ _ _ bytes _ rfl ?_
      have shrinks := TxLocal.pollFlushInBg_shrinks w false ⟨opened.writer, opened.transmitting ++ frame bytes⟩
      rw [List.length_append] at shrinks
      exact Nat.lt_of_le_of_lt shrinks (Nat.add_lt_add_right below _)

theorem DoSend.turn_backlogged (this : DoSend) (tx : Tx σ) :
    Backlogged tx.backlog (this.turn w false tx).2.1.backlog this.untaken (this.turn w false tx).2.2.untaken := by
  have turned := this.turn_turned w false tx
  generalize this.turn w false tx = result at turned
  cases turned with
  | refused | finished => exact .shrunk (Nat.le_refl _)
  | @stopped msg msg' msgs _ _ tx' polled _ =>
    have pushed := tx.pollSend_backlogged w msg (msgs.flatMap Sending.payloads)
    rw [polled] at pushed
    exact pushed
  | @sent msg msgs _ tx' polled =>
    have pushed := tx.pollSend_backlogged w msg (msgs.flatMap Sending.payloads)
    rw [polled] at pushed
    exact pushed
  | @flushed _ tx' polled =>
    have shrinks := tx.pollFlush_shrinks w
    rw [polled] at shrinks
    exact .shrunk shrinks

end

/-! ## Every state -/

def lastFrame (order : List (Nat × Bytes)) : Nat :=
  (order.getLast?.map fun entry => (frame entry.2).length).getD 0

def Closing.backlog {σ : Type} : Closing σ → Nat
  | .writing this | .shutting this => this.transmitting.length
  | .flushing | .flushed | .closed _ => 0

structure Bounded {σ : Type} (s : Clones σ) : Prop where
  shared : s.tx.backlog < TxLocal.pushback + lastFrame s.order
  taken : s.closing.backlog < TxLocal.pushback + lastFrame s.order

section
variable {σ : Type} {w : AsyncWrite σ} {toVec : Message → Except SerializeError Bytes}
  {debug : Message → String}

theorem TxLocal.closeShutdown_shrinks (this : TxLocal σ) :
    (this.closeShutdown w).backlog ≤ this.transmitting.length := by
  unfold closeShutdown
  split
  · exact Nat.le_refl _
  · exact Nat.zero_le _
  · exact Nat.zero_le _

theorem TxLocal.closeWrite_shrinks (this : TxLocal σ) :
    (this.closeWrite w).backlog ≤ this.transmitting.length := by
  unfold closeWrite
  split
  · exact Nat.le_refl _
  · exact Nat.le_refl _
  · split
    · exact Nat.le_refl _
    · simp [Closing.backlog]

theorem Closing.turn_shrinks {tx tx' : Tx σ} {closing closing' : Closing σ} {limit : Nat}
    (shared : tx.backlog < limit) (taken : closing.backlog < limit)
    (turned : closing.turn w tx = some (tx', closing')) : tx'.backlog < limit ∧ closing'.backlog < limit := by
  have positive : 0 < limit := Nat.lt_of_le_of_lt (Nat.zero_le _) shared
  cases closing with
  | flushing =>
    have shrinks := tx.pollFlush_shrinks w
    simp only [turn] at turned
    split at turned <;>
      (rename_i polled; rw [polled] at shrinks; cases turned
       exact ⟨Nat.lt_of_le_of_lt shrinks shared, positive⟩)
  | flushed =>
    obtain ⟨error | this⟩ := tx
    · cases turned
      exact ⟨positive, positive⟩
    · cases turned
      exact ⟨positive, shared⟩
  | writing this =>
    cases turned
    refine ⟨shared, ?_⟩
    split
    · exact Nat.lt_of_le_of_lt this.closeShutdown_shrinks taken
    · exact Nat.lt_of_le_of_lt this.closeWrite_shrinks taken
  | shutting this =>
    cases turned
    exact ⟨shared, Nat.lt_of_le_of_lt this.closeShutdown_shrinks taken⟩
  | closed result => cases turned

theorem Closing.backlog_untaken {closing : Closing σ} (untaken : closing.taken = false) : closing.backlog = 0 := by
  match closing, untaken with
  | .flushing, _ | .flushed, _ | .closed (.error (.send _)), _ => rfl

namespace Bounded

theorem start (state : σ) : Bounded (.new state : Clones σ) := ⟨TxLocal.pushback_pos, TxLocal.pushback_pos⟩

theorem turnCall {s : Clones σ} {i : Nat} {call : SendCall} (kept : Kept toVec s) (bounded : Bounded s) :
    Bounded (s.turnCall w false i call) := by
  cases taken : s.closing.taken with
  | true =>
    -- Nothing is behind the lock, so nothing can be appended.
    obtain ⟨same, unchanged⟩ := call.future.turn_closed w.recording false (kept.placed.closed taken)
    constructor <;> simp only [Clones.turnCall, same, unchanged, Nat.sub_self, List.take_zero, List.map_nil,
      List.append_nil]
    · exact bounded.shared
    · exact bounded.taken
  | false =>
    have turned := call.future.turn_backlogged w.recording s.tx
    constructor
    · simp only [Clones.turnCall]
      generalize (call.future.turn w.recording false s.tx).2.1.backlog = after at turned
      generalize (call.future.turn w.recording false s.tx).2.2.untaken = left at turned
      cases turned with
      | shrunk shrinks =>
        rw [Nat.sub_self, List.take_zero, List.map_nil, List.append_nil]
        exact Nat.lt_of_le_of_lt shrinks bounded.shared
      | @appended bytes _ first below =>
        have split : call.future.untaken = [bytes] ++ left := first
        rw [take_given split]
        simpa [lastFrame] using below
    · show s.closing.backlog < _
      rw [Closing.backlog_untaken taken]
      exact Nat.lt_of_lt_of_le TxLocal.pushback_pos (Nat.le_add_right _ _)

theorem disturbed {s : Clones σ} (bounded : Bounded s) (state : σ) :
    Bounded { s with tx := Senders.disturbed state s.tx, closing := Clones.disturbed state s.closing } := by
  obtain ⟨⟨error | tx⟩, closing, calls, order⟩ := s <;> cases closing <;> exact ⟨bounded.shared, bounded.taken⟩

theorem step {s t : Clones σ} {label : CloneStep σ} (kept : Kept toVec s) (bounded : Bounded s)
    (moved : s.step w false toVec debug label = some t) : Bounded t := by
  cases Clones.step_move moved with
  | request _ | drop _ => exact ⟨bounded.shared, bounded.taken⟩
  | turn _ _ => exact bounded.turnCall kept
  | close turned =>
    obtain ⟨shared, taken⟩ := Closing.turn_shrinks bounded.shared bounded.taken turned
    exact ⟨shared, taken⟩
  | writer state => exact bounded.disturbed state

theorem run {state : σ} {labels : List (CloneStep σ)} {s : Clones σ}
    (run : execute (Clones.step w false toVec debug) (.new state) labels = some s) : Bounded s := by
  have both : Kept toVec s ∧ Bounded s := by
    apply invariant_execute (fun s => Kept toVec s ∧ Bounded s) ?_ ⟨.start state, start state⟩ run
    exact fun _ _ _ before moved => ⟨before.1.step moved, before.2.step before.1 moved⟩
  exact both.2

end Bounded

end

/-- In every state the backlog is less than the limit and the frame appended
last. A poll appends its message only to a backlog below the limit, and one
that completes leaves the backlog below the limit. -/
theorem pushback_bounds {σ : Type} (w : AsyncWrite σ) (toVec : Message → Except SerializeError Bytes)
    (debug : Message → String) (state : σ) (labels : List (CloneStep σ)) (s : Clones σ)
    (run : execute (Clones.step w false toVec debug) (.new state) labels = some s) :
    (∀ tx, s.tx.shared = .ok tx ∨ s.closing = .writing tx ∨ s.closing = .shutting tx →
      tx.transmitting.length < TxLocal.pushback + lastFrame s.order) ∧
    ∀ tx, s.tx.shared = .ok tx → ∀ msg,
      ((tx.pollSend w.recording false msg).2.2 ≠ msg → ∃ bytes, msg.bytes = some bytes ∧
        ∃ opened, TxLocal.pollFlushInBg w.recording false tx = (.ready (.ok ()), opened) ∧
          opened.transmitting.length < TxLocal.pushback ∧
          tx.pollSend w.recording false msg =
            ((TxLocal.pollFlushInBg w.recording false ⟨opened.writer, opened.transmitting ++ frame bytes⟩).1,
              (TxLocal.pollFlushInBg w.recording false ⟨opened.writer, opened.transmitting ++ frame bytes⟩).2,
              ⟨none⟩)) ∧
      ((tx.pollSend w.recording false msg).1 = .ready (.ok ()) →
        (tx.pollSend w.recording false msg).2.1.transmitting.length < TxLocal.pushback) := by
  have bounded : Bounded s := .run run
  constructor
  · rintro tx (shared | writing | shutting)
    · have below := bounded.shared
      rw [Tx.backlog, shared] at below
      exact below
    · have below := bounded.taken
      rw [writing] at below
      exact below
    · have below := bounded.taken
      rw [shutting] at below
      exact below
  · intro tx _ msg
    constructor
    · intro took
      -- A poll that takes its message has pushed it, and that only below the limit.
      have pushed := tx.pollSend_pushed w.recording msg
      generalize tx.pollSend w.recording false msg = result at pushed took
      cases pushed with
      | kept _ => exact absurd rfl took
      | @appended bytes opened whole polled below => exact ⟨bytes, whole, opened, polled, below, rfl⟩
    · exact tx.pollSend_below w.recording msg

/-- A message waits behind a writer that takes nothing. -/
theorem pushback_bounds_kill :
    ∃ s : Clones (List (Poll (Except IoError Nat))), ∃ tx, s.tx.shared = .ok tx ∧
      tx.transmitting = frame (Message.text (.kill ⟨9⟩)) ∧
      tx.transmitting.length < TxLocal.pushback + lastFrame s.order := by
  let labels : List (CloneStep (List (Poll (Except IoError Nat)))) := [.request (.send [.kill ⟨9⟩]), .turn 0]
  have completes : ((execute (Clones.step scripted false messageText (fun _ => "")) (.new []) labels).bind
      fun s => s.tx.shared.toOption.map TxLocal.transmitting) = some (frame (Message.text (.kill ⟨9⟩))) := by
    decide +kernel
  obtain ⟨s, run, completes⟩ := Option.bind_eq_some_iff.mp completes
  obtain ⟨tx, opened, waiting⟩ := Option.map_eq_some_iff.mp completes
  have shared : s.tx.shared = .ok tx := by
    cases kept : s.tx.shared with
    | error error => rw [kept] at opened; cases opened
    | ok tx' => rw [kept] at opened; cases opened; rfl
  have bounds := pushback_bounds scripted messageText (fun _ => "") [] labels s run
  exact ⟨s, tx, shared, waiting, bounds.1 tx (.inl shared)⟩

end MinimalVm.Io
