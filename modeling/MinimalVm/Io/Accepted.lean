import MinimalVm.Io.Backlog
import Mathlib.Data.List.Infix

/-! What a writer has accepted stays accepted.

However a poll ends, the bytes that the writer had accepted before are the first
of those it has accepted after. A future that flushes and has completed has left
nothing behind.
-/

set_option autoImplicit false

namespace MinimalVm.Io

open MinimalVm.Semantics MinimalVm.Protocol MinimalVm.Text

section
variable {σ : Type} (w : AsyncWrite σ) (test : Bool)

namespace TxLocal

theorem pollTransmit_grows (this : TxLocal (Recorded σ)) :
    this.writer.accepted <+: (pollTransmit w.recording this).2.writer.accepted := by
  fun_induction pollTransmit w.recording this with
  | case1 this => exact List.prefix_rfl
  | case2 this nonempty writer polled => rw [AsyncWrite.recording_unwritten polled rfl]
  | case3 this nonempty error writer polled => rw [AsyncWrite.recording_unwritten polled rfl]
  | case4 this nonempty n writer polled zero => rw [AsyncWrite.recording_unwritten polled zero]
  | case5 this nonempty n writer polled positive ih =>
    refine List.IsPrefix.trans ?_ ih
    rw [AsyncWrite.recording_wrote polled]
    exact List.prefix_append _ _

theorem pollFlush_grows (this : TxLocal (Recorded σ)) :
    this.writer.accepted <+: (pollFlush w.recording this).2.writer.accepted := by
  rw [pollFlush_eq]
  exact pollTransmit_grows w this

theorem pollFlushInBg_grows (this : TxLocal (Recorded σ)) :
    this.writer.accepted <+: (pollFlushInBg w.recording test this).2.writer.accepted := by
  rw [(pollFlushInBg_eq w.recording test this).1]
  exact pollFlush_grows w this

theorem pollSend_grows (this : TxLocal (Recorded σ)) (msg : Sending) :
    this.writer.accepted <+: (pollSend w.recording test this msg).2.1.writer.accepted := by
  have grows := pollFlushInBg_grows w test this
  unfold pollSend
  split
  · rename_i polled
    rw [polled] at grows
    exact grows
  · rename_i polled
    rw [polled] at grows
    exact grows
  · rename_i opened polled
    rw [polled] at grows
    refine grows.trans ?_
    obtain ⟨_ | bytes⟩ := msg
    · exact pollFlushInBg_grows w test opened
    · exact pollFlushInBg_grows w test ⟨opened.writer, opened.transmitting ++ bytes ++ [newline]⟩

end TxLocal

namespace Tx

def accepted (this : Tx (Recorded σ)) : Bytes :=
  match this.shared with
  | .ok tx => tx.writer.accepted
  | .error _ => []

def unwritten (this : Tx σ) : Bytes :=
  match this.shared with
  | .ok tx => tx.transmitting
  | .error _ => []

theorem emitted_eq (this : Tx (Recorded σ)) : this.emitted = this.accepted ++ this.unwritten := by
  obtain ⟨error | tx⟩ := this
  · rfl
  · rfl

theorem pollFlush_grows (this : Tx (Recorded σ)) : this.accepted <+: (this.pollFlush w.recording).2.accepted := by
  obtain ⟨error | tx⟩ := this
  · exact List.prefix_rfl
  · exact tx.pollFlush_grows w

theorem pollFlush_moves (this : Tx (Recorded σ)) :
    let that := (this.pollFlush w.recording).2
    this.accepted <+: that.accepted ∧ that.accepted ++ that.unwritten = this.accepted ++ this.unwritten ∧
      that.isOpen = this.isOpen := by
  refine ⟨this.pollFlush_grows w, ?_, this.pollFlush_open w.recording⟩
  rw [← emitted_eq, ← emitted_eq]
  exact this.pollFlush_emitted w

theorem pollSend_grows (this : Tx (Recorded σ)) (msg : Sending) :
    this.accepted <+: (this.pollSend w.recording test msg).2.1.accepted := by
  obtain ⟨error | tx⟩ := this
  · exact List.prefix_rfl
  · exact tx.pollSend_grows w test msg

theorem pollFlush_unwritten (this : Tx σ) (wσ : AsyncWrite σ)
    (completed : (this.pollFlush wσ).1 = .ready (.ok ())) : (this.pollFlush wσ).2.unwritten = [] := by
  obtain ⟨error | tx⟩ := this
  · cases completed
  · obtain ⟨transmitted, -⟩ := tx.pollFlush_completed wσ completed
    have nothing := tx.pollTransmit_completed wσ transmitted
    have left : (tx.pollFlush wσ).2.transmitting = [] := by rw [tx.pollFlush_eq wσ, nothing]
    exact left

end Tx

namespace DoSend

theorem sendAll_grows (msgs : List Sending) (tx : Tx (Recorded σ)) :
    tx.accepted <+: (sendAll w.recording test tx msgs).2.1.accepted := by
  fun_induction sendAll w.recording test tx msgs with
  | case1 tx => exact List.prefix_rfl
  | case2 tx msg msgs tx' msg' polled =>
    have grows := tx.pollSend_grows w test msg
    rw [polled] at grows
    exact grows
  | case3 tx msg msgs error tx' msg' polled =>
    have grows := tx.pollSend_grows w test msg
    rw [polled] at grows
    exact grows
  | case4 tx msg msgs tx' msg' polled empty ih =>
    have grows := tx.pollSend_grows w test msg
    rw [polled] at grows
    exact grows.trans ih
  | case5 tx msg msgs tx' msg' polled left =>
    have grows := tx.pollSend_grows w test msg
    rw [polled] at grows
    exact grows

theorem poll_grows (this : DoSend) (tx : Tx (Recorded σ)) :
    tx.accepted <+: (poll w.recording test tx this).2.1.accepted := by
  obtain ⟨error | msgs, flush⟩ := this
  · exact List.prefix_rfl
  · have grows := sendAll_grows w test msgs tx
    simp only [poll]
    split
    · rename_i tx' left sent
      rw [sent] at grows
      split
      · exact grows.trans (tx'.pollFlush_grows w)
      · exact grows
    · rename_i sent
      rw [sent] at grows
      exact grows

theorem poll_unwritten {this : DoSend} {tx : Tx σ} {wσ : AsyncWrite σ} (flushes : this.flush = true)
    (completed : (poll wσ test tx this).1 = .answered (.ready (.ok ()))) : (poll wσ test tx this).2.1.unwritten = [] := by
  obtain ⟨error | msgs, flush⟩ := this
  · cases completed
  · simp only at flushes
    subst flushes
    simp only [poll] at completed ⊢
    split at completed
    · rename_i tx' left sent
      simp only [if_true] at completed ⊢
      exact tx'.pollFlush_unwritten wσ (Polled.answered.inj completed)
    · rename_i stopped tx' left failed sent
      exact absurd completed failed

end DoSend

/-! ## Closing -/

inductive WritesOut (this : TxLocal (Recorded σ)) : Closing (Recorded σ) → Prop
  | writing {that : TxLocal (Recorded σ)} : this.writer.accepted <+: that.writer.accepted →
      that.emitted = this.emitted → (this.transmitting = [] → that.transmitting = []) → WritesOut this (.writing that)
  | shutting {writer : Recorded σ} : writer.accepted = this.writer.accepted → WritesOut this (.shutting { this with writer })
  | failed {error : IoError} : WritesOut this (.closed (.error (.shutdown error)))
  | closed {writer : Recorded σ} : writer.accepted = this.writer.accepted → WritesOut this (.closed (.ok writer))

theorem TxLocal.closeShutdown_writesOut (this : TxLocal (Recorded σ)) :
    WritesOut this (this.closeShutdown w.recording) := by
  have kept : (w.recording.pollShutdown this.writer).2.accepted = this.writer.accepted := rfl
  unfold closeShutdown
  split
  · rename_i polled
    rw [polled] at kept
    exact .shutting kept
  · exact .failed
  · rename_i polled
    rw [polled] at kept
    exact .closed kept

theorem TxLocal.closeWrite_writesOut (this : TxLocal (Recorded σ)) : WritesOut this (this.closeWrite w.recording) := by
  unfold closeWrite
  split
  · rename_i writer polled
    have same := AsyncWrite.recording_unwritten polled rfl
    refine .writing ?_ ?_ id
    · rw [same]
    · simp only [emitted, same]
  · rename_i writer polled
    exact .shutting (AsyncWrite.recording_unwritten polled rfl)
  · rename_i n writer polled
    split
    · rename_i zero
      exact .shutting (AsyncWrite.recording_unwritten polled zero)
    · have wrote := AsyncWrite.recording_wrote polled
      refine .writing ?_ ?_ fun nothing => ?_
      · rw [wrote]
        exact List.prefix_append _ _
      · simp only [emitted, wrote, List.append_assoc, List.take_append_drop]
      · exact List.drop_eq_nil_of_le (Nat.le_trans (Nat.le_of_eq (congrArg List.length nothing)) (Nat.zero_le _))

def Closing.held? : Closing σ → Option (TxLocal σ)
  | .writing this | .shutting this => some this
  | .flushing | .flushed | .closed _ => none

/-- Once the buffer is taken every turn of closing is a call of the writer. -/
theorem Closing.turn_writesOut {tx tx' : Tx (Recorded σ)} {this : TxLocal (Recorded σ)}
    {closing closing' : Closing (Recorded σ)} (held : closing.held? = some this)
    (turned : closing.turn w.recording tx = some (tx', closing')) : tx' = tx ∧ WritesOut this closing' := by
  match closing, held with
  | .writing _, rfl =>
    cases turned
    refine ⟨rfl, ?_⟩
    split
    · exact this.closeShutdown_writesOut w
    · exact this.closeWrite_writesOut w
  | .shutting _, rfl =>
    cases turned
    exact ⟨rfl, this.closeShutdown_writesOut w⟩

end
end MinimalVm.Io
