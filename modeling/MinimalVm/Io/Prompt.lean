import MinimalVm.Io.Clones

/-! A connection that takes everything at once.

As long as the writer is in such a state no future that sends has to wait, and
closing goes through.
-/

set_option autoImplicit false

namespace MinimalVm.Io

open MinimalVm.Semantics MinimalVm.Protocol

/-- In this state a writer accepts all it is offered, and stays in it. -/
structure Prompt {σ : Type} (w : AsyncWrite σ) (prompt : σ) : Prop where
  writes : ∀ offered, w.pollWrite prompt offered = (.ready (.ok ⟨offered.length, Nat.le_refl _⟩), prompt)
  flushes : w.pollFlush prompt = (.ready (.ok ()), prompt)
  shutsDown : w.pollShutdown prompt = (.ready (.ok ()), prompt)

section
variable {σ : Type} {w : AsyncWrite σ} {prompt : σ}

namespace Prompt

theorem recording_writes (prompts : Prompt w prompt) (accepted offered : Bytes) :
    w.recording.pollWrite ⟨prompt, accepted⟩ offered =
      (.ready (.ok ⟨offered.length, Nat.le_refl _⟩), ⟨prompt, accepted ++ offered⟩) := by
  simp only [AsyncWrite.recording, prompts.writes, written, List.take_length]

theorem recording_flushes (prompts : Prompt w prompt) (accepted : Bytes) :
    w.recording.pollFlush ⟨prompt, accepted⟩ = (.ready (.ok ()), ⟨prompt, accepted⟩) := by
  simp only [AsyncWrite.recording, prompts.flushes]

theorem recording_shutsDown (prompts : Prompt w prompt) (accepted : Bytes) :
    w.recording.pollShutdown ⟨prompt, accepted⟩ = (.ready (.ok ()), ⟨prompt, accepted⟩) := by
  simp only [AsyncWrite.recording, prompts.shutsDown]

theorem pollTransmit (prompts : Prompt w prompt) (accepted transmitting : Bytes) :
    TxLocal.pollTransmit w.recording ⟨⟨prompt, accepted⟩, transmitting⟩ =
      (.ready (.ok ()), ⟨⟨prompt, accepted ++ transmitting⟩, []⟩) := by
  by_cases none : transmitting = []
  · subst none
    rw [TxLocal.pollTransmit, if_pos rfl, List.append_nil]
  · have some : transmitting.length ≠ 0 := fun empty => none (List.length_eq_zero_iff.mp empty)
    rw [TxLocal.pollTransmit, if_neg none]
    simp only [prompts.recording_writes, some, if_false, List.drop_length]
    rw [TxLocal.pollTransmit, if_pos rfl]

theorem pollFlush (prompts : Prompt w prompt) (accepted transmitting : Bytes) :
    TxLocal.pollFlush w.recording ⟨⟨prompt, accepted⟩, transmitting⟩ =
      (.ready (.ok ()), ⟨⟨prompt, accepted ++ transmitting⟩, []⟩) := by
  simp only [TxLocal.pollFlush, prompts.pollTransmit, prompts.recording_flushes]

theorem pollSend (prompts : Prompt w prompt) (test : Bool) (accepted transmitting : Bytes) (msg : Sending) :
    ∃ accepted', TxLocal.pollSend w.recording test ⟨⟨prompt, accepted⟩, transmitting⟩ msg =
      (.ready (.ok ()), ⟨⟨prompt, accepted'⟩, []⟩, ⟨none⟩) := by
  obtain ⟨_ | bytes⟩ := msg
  all_goals
    simp only [TxLocal.pollSend, TxLocal.pollFlushInBg, prompts.pollFlush]
    exact ⟨_, rfl⟩

end Prompt

def Tx.Prompts (prompt : σ) (this : Tx (Recorded σ)) : Prop :=
  ∀ tx, this.shared = .ok tx → tx.writer.state = prompt

theorem Tx.prompts_ok (accepted transmitting : Bytes) :
    Tx.Prompts prompt ⟨.ok ⟨⟨prompt, accepted⟩, transmitting⟩⟩ := by
  rintro tx same
  cases same
  rfl

theorem Tx.prompts_disturbed (tx : Tx (Recorded σ)) : (Senders.disturbed prompt tx).Prompts prompt := by
  obtain ⟨error | tx⟩ := tx
  · exact fun _ same => nomatch same
  · exact prompts_ok _ _

theorem Prompt.sendAll (prompts : Prompt w prompt) (test : Bool) {tx : Tx (Recorded σ)} (now : tx.Prompts prompt)
    (msgs : List Sending) :
    ∃ result tx' left, DoSend.sendAll w.recording test tx msgs = (.answered (.ready result), tx', left) ∧
      tx'.Prompts prompt := by
  induction msgs generalizing tx with
  | nil => exact ⟨.ok (), tx, [], rfl, now⟩
  | cons msg msgs ih =>
    obtain ⟨error | ⟨⟨state, accepted⟩, transmitting⟩⟩ := tx
    · exact ⟨.error error, ⟨.error error⟩, msg :: msgs, rfl, now⟩
    · obtain rfl : state = prompt := now _ rfl
      obtain ⟨accepted', sent⟩ := prompts.pollSend test accepted transmitting msg
      obtain ⟨result, tx', left, rest, still⟩ := ih (Tx.prompts_ok accepted' [])
      refine ⟨result, tx', left, ?_, still⟩
      simp only [DoSend.sendAll, Tx.pollSend, sent]
      exact rest

theorem Prompt.poll (prompts : Prompt w prompt) (test : Bool) {tx : Tx (Recorded σ)} (now : tx.Prompts prompt)
    (future : DoSend) :
    ∃ result tx' future', future.poll w.recording test tx = (.answered (.ready result), tx', future') := by
  obtain ⟨error | msgs, flush⟩ := future
  · exact ⟨.error error, tx, _, rfl⟩
  · obtain ⟨result, tx', left, sent, still⟩ := prompts.sendAll test now msgs
    obtain error | _ := result
    · refine ⟨.error error, tx', ⟨.ok left, flush⟩, ?_⟩
      simp only [DoSend.poll, sent]
    · cases flush with
      | false =>
        refine ⟨.ok (), tx', ⟨.ok left, false⟩, ?_⟩
        simp only [DoSend.poll, sent]
        rfl
      | true =>
        obtain ⟨error | ⟨⟨state, accepted⟩, transmitting⟩⟩ := tx'
        · refine ⟨.error error, ⟨.error error⟩, ⟨.ok left, true⟩, ?_⟩
          simp only [DoSend.poll, sent, Tx.pollFlush, if_true]
        · obtain rfl : state = prompt := still _ rfl
          refine ⟨.ok (), ⟨.ok ⟨⟨state, accepted ++ transmitting⟩, []⟩⟩, ⟨.ok left, true⟩, ?_⟩
          simp only [DoSend.poll, sent, if_true, Tx.pollFlush, prompts.pollFlush]

/-! ## Closing -/

theorem Prompt.shuts (prompts : Prompt w prompt) (tx : Tx (Recorded σ)) (accepted transmitting : Bytes) :
    Closing.turn w.recording tx (.shutting ⟨⟨prompt, accepted⟩, transmitting⟩) =
      some (tx, .closed (.ok ⟨prompt, accepted⟩)) := by
  simp only [Closing.turn, TxLocal.closeShutdown, prompts.recording_shutsDown]

theorem Prompt.closes (prompts : Prompt w prompt) (tx : Tx (Recorded σ)) (accepted : Bytes) :
    Closing.turn w.recording tx (.writing ⟨⟨prompt, accepted⟩, []⟩) = some (tx, .closed (.ok ⟨prompt, accepted⟩)) := by
  simp only [Closing.turn, if_true, TxLocal.closeShutdown, prompts.recording_shutsDown]

theorem Prompt.writesOut (prompts : Prompt w prompt) (tx : Tx (Recorded σ)) (accepted : Bytes) {transmitting : Bytes}
    (nonempty : transmitting ≠ []) :
    Closing.turn w.recording tx (.writing ⟨⟨prompt, accepted⟩, transmitting⟩) =
      some (tx, .writing ⟨⟨prompt, accepted ++ transmitting⟩, []⟩) := by
  have positive : transmitting.length ≠ 0 := fun empty => nonempty (List.length_eq_zero_iff.mp empty)
  simp only [Closing.turn, nonempty, if_false, TxLocal.closeWrite, prompts.recording_writes, positive, List.drop_length]

end

end MinimalVm.Io
