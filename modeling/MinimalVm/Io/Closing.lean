import MinimalVm.Io.Clones

/-! Closing a sending end while its clones go on.

Once the transmit buffer is taken out of the shared end nothing is enqueued any
more, so the frames to be written are settled. They all arrive, unless the
writer turns down a write made by the clone that closes.
-/

set_option autoImplicit false

namespace MinimalVm.Io

open MinimalVm.Semantics MinimalVm.Protocol MinimalVm.Text

def turnsDown {limit : Nat} : Poll (Except IoError {n : Nat // n ≤ limit}) → Bool
  | .pending => false
  | .ready (.error _) => true
  | .ready (.ok n) => n.val == 0

section
variable {σ : Type} (w : AsyncWrite σ)

def CloseAccepts (s : Clones σ) : CloneStep σ → Prop
  | .close => ∀ this, s.closing = .writing this → this.transmitting ≠ [] →
      turnsDown (w.recording.pollWrite this.writer this.transmitting).1 = false
  | .request _ | .turn _ | .drop _ | .writer _ => True

end

section
variable {σ : Type} {w : AsyncWrite σ} {test : Bool} {toVec : Message → Except SerializeError Bytes}
  {debug : Message → String}

/-! ## After the buffer was taken -/

theorem TxLocal.closeShutdown_taken (this : TxLocal σ) : (this.closeShutdown w).taken = true := by
  unfold closeShutdown
  split <;> rfl

theorem TxLocal.closeWrite_taken (this : TxLocal σ) : (this.closeWrite w).taken = true := by
  unfold closeWrite
  split
  · rfl
  · rfl
  · split <;> rfl

theorem Closing.turn_taken {tx tx' : Tx σ} {closing closing' : Closing σ} (taken : closing.taken = true)
    (turned : closing.turn w tx = some (tx', closing')) : closing'.taken = true := by
  match closing, taken with
  | .writing this, _ =>
    cases turned
    split
    · exact this.closeShutdown_taken
    · exact this.closeWrite_taken
  | .shutting this, _ =>
    cases turned
    exact this.closeShutdown_taken
  | .closed (.ok _), _ | .closed (.error (.shutdown _)), _ => cases turned

theorem Clones.disturbed_taken (state : σ) (closing : Closing (Recorded σ)) :
    (disturbed state closing).taken = closing.taken := by
  match closing with
  | .flushing | .flushed | .writing _ | .shutting _ | .closed (.ok _) | .closed (.error (.send _))
  | .closed (.error (.shutdown _)) => rfl

/-- What was enqueued before stays all that is ever enqueued. -/
theorem Kept.frozen {s t : Clones σ} {label : CloneStep σ} (kept : Kept toVec s) (taken : s.closing.taken = true)
    (moved : s.step w test toVec debug label = some t) : t.closing.taken = true ∧ t.order = s.order := by
  cases Clones.step_move moved with
  | request _ | drop _ => exact ⟨taken, rfl⟩
  | @turn i call present _ =>
    obtain ⟨-, unchanged⟩ := call.future.turn_closed w.recording test (kept.placed.closed taken)
    refine ⟨taken, ?_⟩
    simp [Clones.turnCall, unchanged]
  | close turned => exact ⟨Closing.turn_taken taken turned, rfl⟩
  | writer state => exact ⟨(Clones.disturbed_taken state s.closing).trans taken, rfl⟩

theorem Kept.frozen_run {s t : Clones σ} {labels : List (CloneStep σ)} (kept : Kept toVec s)
    (taken : s.closing.taken = true) (run : execute (Clones.step w test toVec debug) s labels = some t) :
    Kept toVec t ∧ t.closing.taken = true ∧ t.order = s.order := by
  apply invariant_execute (fun u => Kept toVec u ∧ u.closing.taken = true ∧ u.order = s.order) ?_
    ⟨kept, taken, rfl⟩ run
  intro u label v before moved
  obtain ⟨still, same⟩ := before.1.frozen before.2.1 moved
  exact ⟨before.1.step moved, still, same.trans before.2.2⟩

/-! ## What arrives -/

/-- The clone that closes has nothing left once it has begun to shut down. -/
def Delivered (frames : Bytes) : Closing (Recorded σ) → Prop
  | .shutting this => this.transmitting = []
  | .closed (.ok writer) => writer.accepted = frames
  | .flushing | .flushed | .writing _ | .closed (.error _) => True

/-- The clone that closes has given up on bytes that it still has. -/
def Lost (frames : Bytes) : Closing (Recorded σ) → Prop
  | .shutting this => this.transmitting ≠ []
  | .closed (.ok writer) => writer.accepted ≠ frames
  | .closed (.error (.shutdown _)) => True
  | .flushing | .flushed | .writing _ | .closed (.error (.send _)) => False

theorem TxLocal.closeShutdown_delivered {frames : Bytes} {this : TxLocal (Recorded σ)}
    (emitted : this.emitted = frames) (nothing : this.transmitting = []) :
    Delivered frames (this.closeShutdown w.recording) := by
  have kept : (w.recording.pollShutdown this.writer).2.accepted = this.writer.accepted := rfl
  unfold closeShutdown
  split
  · exact nothing
  · trivial
  · rename_i polled
    rw [polled] at kept
    show _ = frames
    rw [kept, ← emitted, TxLocal.emitted, nothing, List.append_nil]

theorem TxLocal.closeShutdown_lost {frames : Bytes} {this : TxLocal (Recorded σ)}
    (emitted : this.emitted = frames) (left : this.transmitting ≠ []) :
    Lost frames (this.closeShutdown w.recording) := by
  have kept : (w.recording.pollShutdown this.writer).2.accepted = this.writer.accepted := rfl
  unfold closeShutdown
  split
  · exact left
  · trivial
  · rename_i polled
    rw [polled] at kept
    intro whole
    rw [kept, ← emitted, TxLocal.emitted] at whole
    exact left (List.append_right_eq_self.mp whole.symm)

theorem TxLocal.closeWrite_delivered {frames : Bytes} {this : TxLocal (Recorded σ)}
    (accepts : turnsDown (w.recording.pollWrite this.writer this.transmitting).1 = false) :
    Delivered frames (this.closeWrite w.recording) := by
  unfold closeWrite
  split
  · trivial
  · rename_i polled
    rw [polled] at accepts
    cases accepts
  · rename_i n writer polled
    rw [polled] at accepts
    have positive : n.val ≠ 0 := by simpa [turnsDown] using accepts
    rw [if_neg positive]
    trivial

theorem TxLocal.closeWrite_lost {frames : Bytes} {this : TxLocal (Recorded σ)} (left : this.transmitting ≠ [])
    (refuses : turnsDown (w.recording.pollWrite this.writer this.transmitting).1 ≠ false) :
    Lost frames (this.closeWrite w.recording) := by
  unfold closeWrite
  split
  · rename_i polled
    rw [polled] at refuses
    exact absurd rfl refuses
  · exact left
  · rename_i n writer polled
    rw [polled] at refuses
    have zero : n.val = 0 := by simpa [turnsDown] using refuses
    rw [if_pos zero]
    exact left

theorem Clones.disturbed_delivered (state : σ) (frames : Bytes) (closing : Closing (Recorded σ)) :
    Delivered frames (disturbed state closing) ↔ Delivered frames closing := by
  cases closing <;> exact Iff.rfl

theorem Clones.disturbed_lost (state : σ) (frames : Bytes) (closing : Closing (Recorded σ)) :
    Lost frames (disturbed state closing) ↔ Lost frames closing := by
  match closing with
  | .flushing | .flushed | .writing _ | .shutting _ | .closed (.ok _) | .closed (.error (.send _))
  | .closed (.error (.shutdown _)) => exact Iff.rfl

theorem Delivered.of_untaken {closing : Closing (Recorded σ)} (untaken : closing.taken = false) (frames : Bytes) :
    Delivered frames closing := by
  match closing, untaken with
  | .flushing, _ | .flushed, _ | .closed (.error (.send _)), _ => trivial

theorem Lost.taken {frames : Bytes} {closing : Closing (Recorded σ)} (lost : Lost frames closing) :
    closing.taken = true := by
  match closing, lost with
  | .shutting _, _ | .closed (.ok _), _ | .closed (.error (.shutdown _)), _ => rfl

theorem Kept.delivered {s t : Clones σ} {label : CloneStep σ} (kept : Kept toVec s)
    (before : Delivered (framesOf (s.order.map Prod.snd)) s.closing) (accepts : CloseAccepts w s label)
    (moved : s.step w test toVec debug label = some t) :
    Delivered (framesOf (t.order.map Prod.snd)) t.closing := by
  cases Clones.step_move moved with
  | request _ | drop _ => exact before
  | @turn i call present _ =>
    cases taken : s.closing.taken with
    | true =>
      rw [(kept.frozen taken moved).2]
      exact before
    | false => exact .of_untaken taken _
  | @close tx closing turned =>
    obtain ⟨tx, closing, calls, order⟩ := s
    cases closing with
    | flushing =>
      simp only [Closing.turn] at turned
      split at turned <;> (cases turned; trivial)
    | flushed =>
      obtain ⟨error | this⟩ := tx <;> (cases turned; trivial)
    | writing this =>
      cases turned
      split
      · rename_i nothing
        exact this.closeShutdown_delivered kept.placed.2 nothing
      · rename_i left
        exact this.closeWrite_delivered (accepts this rfl left)
    | shutting this =>
      cases turned
      exact this.closeShutdown_delivered kept.placed.2 before
    | closed result => cases turned
  | writer state => exact (Clones.disturbed_delivered state _ s.closing).mpr before

theorem Kept.loses {s t : Clones σ} {label : CloneStep σ} (refuses : ¬ CloseAccepts w s label)
    (moved : s.step w test toVec debug label = some t) :
    Lost (framesOf (t.order.map Prod.snd)) t.closing := by
  cases Clones.step_move moved with
  | request _ | drop _ | turn _ _ | writer _ => exact absurd trivial refuses
  | close turned =>
    obtain ⟨tx, closing, calls, order⟩ := s
    simp only [CloseAccepts, Classical.not_forall] at refuses
    obtain ⟨this, rfl, left, down⟩ := refuses
    cases turned
    rw [if_neg left]
    exact this.closeWrite_lost left down

theorem Kept.lost {s t : Clones σ} {label : CloneStep σ} (kept : Kept toVec s)
    (before : Lost (framesOf (s.order.map Prod.snd)) s.closing)
    (moved : s.step w test toVec debug label = some t) :
    Lost (framesOf (t.order.map Prod.snd)) t.closing := by
  rw [(kept.frozen before.taken moved).2]
  cases Clones.step_move moved with
  | request _ | drop _ | turn _ _ => exact before
  | close turned =>
    obtain ⟨tx, closing, calls, order⟩ := s
    match closing, before with
    | .shutting this, before =>
      cases turned
      exact this.closeShutdown_lost kept.placed.2 before
    | .closed _, _ => cases turned
  | writer state => exact (Clones.disturbed_lost state _ s.closing).mpr before

/-- What the clone that closes delivers is decided by its own writes. -/
theorem delivered_exactly {state : σ} {labels : List (CloneStep σ)} {t : Clones σ} {writer : Recorded σ}
    (run : execute (Clones.step w test toVec debug) (.new state) labels = some t)
    (closed : t.closing = .closed (.ok writer)) :
    writer.accepted = framesOf (t.order.map Prod.snd) ↔
      Throughout (Clones.step w test toVec debug) (CloseAccepts w) (.new state) labels := by
  have start : Kept toVec (.new state : Clones σ) := .start state
  constructor
  · intro whole
    apply Classical.byContradiction
    intro broken
    obtain ⟨first, label, rest, u, v, rfl, before, moved, after, refuses⟩ :=
      exists_of_not_throughout run broken
    have kept : Kept toVec u := Kept.run before
    have lost : Kept toVec t ∧ Lost (framesOf (t.order.map Prod.snd)) t.closing := by
      apply invariant_execute (fun s => Kept toVec s ∧ Lost (framesOf (s.order.map Prod.snd)) s.closing) ?_
        ⟨kept.step moved, Kept.loses refuses moved⟩ after
      exact fun _ _ _ held moved => ⟨held.1.step moved, held.1.lost held.2 moved⟩
    rw [closed] at lost
    exact lost.2 whole
  · intro accepts
    have delivered : Kept toVec t ∧ Delivered (framesOf (t.order.map Prod.snd)) t.closing := by
      apply invariant_throughout (fun s => Kept toVec s ∧ Delivered (framesOf (s.order.map Prod.snd)) s.closing)
        ?_ ⟨start, trivial⟩ accepts run
      exact fun _ _ _ held met moved => ⟨held.1.step moved, held.1.delivered held.2 met moved⟩
    rw [closed] at delivered
    exact delivered.2

end

/-- From the moment the buffer is taken every send and every flush is refused,
leaves its message where it is and enqueues nothing. A writer handed back
accepted the frames enqueued before that moment, the last of them perhaps only
in part; it accepted them all exactly if it turned down no write made while
closing. -/
theorem close_is_final {σ : Type} (w : AsyncWrite σ) (test : Bool)
    (toVec : Message → Except SerializeError Bytes) (debug : Message → String) (state : σ)
    (labels rest : List (CloneStep σ)) (s t : Clones σ)
    (before : execute (Clones.step w test toVec debug) (.new state) labels = some s)
    (taken : s.closing.taken = true) (run : execute (Clones.step w test toVec debug) s rest = some t) :
    (∀ msg, t.tx.pollSend w.recording test msg = (.ready (.error .closed), t.tx, msg)) ∧
      t.tx.pollFlush w.recording = (.ready (.error .closed), t.tx) ∧
      t.order = s.order ∧
      ∀ writer, t.closing = .closed (.ok writer) →
        writer.accepted <+: framesOf (s.order.map Prod.snd) ∧
          (writer.accepted = framesOf (s.order.map Prod.snd) ↔
            Throughout (Clones.step w test toVec debug) (CloseAccepts w) (.new state) (labels ++ rest)) := by
  obtain ⟨kept, still, same⟩ := (Kept.run before).frozen_run taken run
  have shut : t.tx = ⟨.error .closed⟩ := congrArg Tx.mk (kept.placed.closed still)
  rw [shut]
  refine ⟨fun _ => rfl, rfl, same, ?_⟩
  intro writer closed
  rw [← same]
  constructor
  · have placed := kept.placed
    rw [closed] at placed
    exact placed.2
  · exact delivered_exactly (execute_append.mpr ⟨s, before, run⟩) closed

def Closing.handedBack {σ : Type} : Closing (Recorded σ) → Option Bytes
  | .closed (.ok writer) => some writer.accepted
  | .flushing | .flushed | .writing _ | .shutting _ | .closed (.error _) => none

theorem Closing.handedBack_writer {σ : Type} {closing : Closing (Recorded σ)} {accepted : Bytes}
    (handed : closing.handedBack = some accepted) :
    ∃ writer, closing = .closed (.ok writer) ∧ writer.accepted = accepted := by
  match closing, handed with
  | .closed (.ok writer), handed => exact ⟨writer, rfl, Option.some.inj handed⟩

def lateMessage : List (CloneStep (List (Poll (Except IoError Nat)))) :=
  [.request (.send [.kill ⟨9⟩]), .close, .turn 0, .close]

theorem close_is_final_kill :
    ∃ t : Clones (List (Poll (Except IoError Nat))), ∃ writer, t.closing = .closed (.ok writer) ∧
      t.tx.pollFlush scripted.recording = (.ready (.error .closed), t.tx) ∧
      writer.accepted = framesOf [Message.text (.kill ⟨9⟩)] := by
  let script : List (Poll (Except IoError Nat)) := [.pending, .ready (.ok 3), .pending, .ready (.ok 100)]
  let step := Clones.step scripted false messageText (fun _ => "")
  let writing : List (CloneStep (List (Poll (Except IoError Nat)))) := [.close, .close, .close, .close]
  have completes : ((execute step (.new script) lateMessage).bind fun s => (execute step s writing).map fun t =>
      (s.closing.taken, t.closing.handedBack)) =
      some (true, some (framesOf [Message.text (.kill ⟨9⟩)])) := by decide +kernel
  obtain ⟨s, before, completes⟩ := Option.bind_eq_some_iff.mp completes
  obtain ⟨t, run, reached⟩ := Option.map_eq_some_iff.mp completes
  obtain ⟨taken, handed⟩ := Prod.mk.inj reached
  obtain ⟨writer, closed, accepted⟩ := Closing.handedBack_writer handed
  have final := close_is_final scripted false messageText (fun _ => "") script lateMessage writing s t before
    taken run
  exact ⟨t, writer, closed, final.2.1, accepted⟩

/-- The writer accepts no byte of the message, and yet closing succeeds. -/
theorem close_loses_message :
    ∃ t : Clones (List (Poll (Except IoError Nat))), ∃ writer,
      execute (Clones.step scripted false messageText (fun _ => "")) (.new [.pending, .ready (.ok 0)])
        (lateMessage ++ [.close, .close]) = some t ∧
      t.closing = .closed (.ok writer) ∧ t.order.map Prod.snd = [Message.text (.kill ⟨9⟩)] ∧
      writer.accepted ≠ framesOf (t.order.map Prod.snd) := by
  have completes : ((execute (Clones.step scripted false messageText (fun _ => ""))
      (.new [.pending, .ready (.ok 0)]) (lateMessage ++ [.close, .close])).map fun t =>
      (t.closing.handedBack, t.order.map Prod.snd)) = some (some [], [Message.text (.kill ⟨9⟩)]) := by
    decide +kernel
  obtain ⟨t, run, reached⟩ := Option.map_eq_some_iff.mp completes
  obtain ⟨handed, order⟩ := Prod.mk.inj reached
  obtain ⟨writer, closed, nothing⟩ := Closing.handedBack_writer handed
  refine ⟨t, writer, run, closed, order, ?_⟩
  rw [nothing, order]
  exact (List.append_ne_nil_of_left_ne_nil (frame_nonempty _) _).symm

end MinimalVm.Io
