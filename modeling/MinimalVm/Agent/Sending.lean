import MinimalVm.Io.Send

/-! One message on its way through the shared sending end.

A task that sends waits for its future to complete and meanwhile only matters
in two respects: whether the message has been taken into the transmit buffer,
and what the last poll reported. Every poll of the future is one of these.
-/

set_option autoImplicit false

namespace MinimalVm.Agent

open MinimalVm.Semantics MinimalVm.Protocol MinimalVm.Io

structure Send where
  msg : Message
  flush : Bool
  taken : Bool

inductive SendPoll where
  | pending (takes : Bool)
  | failed (takes : Bool) (error : SendError)
  | sent

namespace SendPoll

def takes : SendPoll → Bool
  | .pending takes | .failed takes _ => takes
  | .sent => true

def outcome : SendPoll → PollSend
  | .pending _ => .pending
  | .failed _ error => .ready (.error error)
  | .sent => .ready (.ok ())

def of (takes : Bool) : PollSend → SendPoll
  | .pending => .pending takes
  | .ready (.error error) => .failed takes error
  | .ready (.ok ()) => .sent

theorem of_outcome (takes : Bool) (outcome : PollSend) : (of takes outcome).outcome = outcome := by
  obtain _ | _ | _ := outcome <;> rfl

theorem of_takes {takes : Bool} {outcome : PollSend}
    (complete : outcome = .ready (.ok ()) → takes = true) : (of takes outcome).takes = takes := by
  obtain _ | _ | _ := outcome
  · rfl
  · rfl
  · exact (complete rfl).symm

end SendPoll

namespace Send

def send (msg : Message) : Send := ⟨msg, false, false⟩

def sendAndFlush (msg : Message) : Send := ⟨msg, true, false⟩

def poll (this : Send) (polled : SendPoll) : Send := { this with taken := this.taken || polled.takes }

/-- The messages that a poll takes into the buffer. -/
def newly (this : Send) (polled : SendPoll) : List Message :=
  if this.taken = false ∧ polled.takes = true then [this.msg] else []

/-- The messages taken so far. -/
def enqueued (this : Send) : List Message := if this.taken then [this.msg] else []

@[simp] theorem poll_msg (this : Send) (polled : SendPoll) : (this.poll polled).msg = this.msg := rfl

theorem poll_enqueued (this : Send) (polled : SendPoll) :
    (this.poll polled).enqueued = this.enqueued ++ this.newly polled := by
  obtain ⟨msg, flush, taken⟩ := this
  cases taken <;> cases taking : polled.takes <;> simp [enqueued, newly, poll, taking]

theorem sent_enqueued (this : Send) : this.enqueued ++ this.newly .sent = [this.msg] := by
  rw [← poll_enqueued]
  simp [enqueued, poll, SendPoll.takes]

theorem enqueued_cases (this : Send) : this.enqueued = [] ∨ this.enqueued = [this.msg] := by
  unfold enqueued
  split
  · exact .inr rfl
  · exact .inl rfl

def request (this : Send) : SendRequest :=
  if this.flush then .sendAndFlush [this.msg] else .send [this.msg]

def Matches (toVec : Message → Except SerializeError Bytes) (this : Send) (future : DoSend) : Prop :=
  ∃ payload left, toVec this.msg = .ok payload ∧ future.msgs = .ok left ∧ future.flush = this.flush ∧
    left.flatMap Sending.payloads = if this.taken then [] else [payload]

theorem new_matches {toVec : Message → Except SerializeError Bytes} {debug : Message → String}
    {this : Send} {payload : Bytes} (fresh : this.taken = false) (encoded : toVec this.msg = .ok payload) :
    this.Matches toVec (this.request.future toVec debug) := by
  refine ⟨payload, [⟨some payload⟩], encoded, ?_, ?_, ?_⟩
  · unfold request
    split <;> simp [SendRequest.future, DoSend.prepareMsgs, Sending.new, encoded] <;> rfl
  · unfold request
    split
    · rename_i flushes
      exact flushes.symm
    · rename_i plain
      exact (Bool.eq_false_iff.mpr plain).symm
  · rw [fresh]
    rfl

variable {σ : Type} {toVec : Message → Except SerializeError Bytes}

theorem future_flush (w : AsyncWrite σ) (test : Bool) (tx : Tx σ) (future : DoSend) :
    (future.poll w test tx).2.2.flush = future.flush := by
  obtain ⟨error | msgs, flush⟩ := future
  · rfl
  · unfold DoSend.poll
    dsimp only
    split
    · split <;> rfl
    · rfl

/-- Every poll of the future is one of the polls above, and emits the frames of
the messages it takes. -/
theorem poll_matches {this : Send} {future : DoSend} (same : this.Matches toVec future)
    (w : AsyncWrite σ) (test : Bool) (tx : Tx (Recorded σ)) :
    ∃ (polled : SendPoll) (payloads : List Bytes),
      (future.poll w.recording test tx).1 = .answered polled.outcome ∧
      (this.poll polled).Matches toVec (future.poll w.recording test tx).2.2 ∧
      (this.newly polled).map toVec = payloads.map .ok ∧
      (future.poll w.recording test tx).2.1.emitted = tx.emitted ++ framesOf payloads := by
  have flushes := future_flush w.recording test tx future
  obtain ⟨payload, left, encoded, msgs, flush, held⟩ := same
  obtain ⟨futureMsgs, futureFlush⟩ := future
  cases msgs
  obtain ⟨left', msgs', ⟨calm, complete⟩, payloads, split, emitted⟩ :=
    DoSend.poll_transferred w test left futureFlush tx
  generalize DoSend.poll w.recording test tx ⟨.ok left, futureFlush⟩ = result at *
  obtain ⟨polled, tx', future'⟩ := result
  cases polled with
  | panicked => exact absurd rfl calm
  | answered outcome =>
    have finished (ok : outcome = .ready (.ok ())) : left'.flatMap Sending.payloads = [] := by
      rw [complete (ok ▸ rfl)]
      rfl
    rw [held] at split
    obtain ⟨msg, flush', taken⟩ := this
    cases taken with
    -- The message was taken before, so this poll takes nothing.
    | true =>
      obtain ⟨none, empty⟩ := List.append_eq_nil_iff.mp split.symm
      refine ⟨.of true outcome, payloads, ?_, ?_, ?_, emitted⟩
      · rw [SendPoll.of_outcome]
      · exact ⟨payload, left', encoded, msgs', flushes.trans flush, empty⟩
      · rw [none]
        rfl
    | false =>
      rcases List.singleton_eq_append_iff.mp split with ⟨none, whole⟩ | ⟨whole, empty⟩
      · -- The message is still there, so the poll cannot have succeeded.
        have takes : (SendPoll.of false outcome).takes = false :=
          SendPoll.of_takes fun ok => nomatch (finished ok).symm.trans whole
        refine ⟨.of false outcome, payloads, ?_, ?_, ?_, emitted⟩
        · rw [SendPoll.of_outcome]
        · exact ⟨payload, left', encoded, msgs', flushes.trans flush, by simp [poll, takes, whole]⟩
        · simp [newly, takes, none]
      · have takes : (SendPoll.of true outcome).takes = true := SendPoll.of_takes fun _ => rfl
        refine ⟨.of true outcome, payloads, ?_, ?_, ?_, emitted⟩
        · rw [SendPoll.of_outcome]
        · exact ⟨payload, left', encoded, msgs', flushes.trans flush, by simp [poll, takes, empty]⟩
        · simp [newly, takes, whole, encoded]

end Send
end MinimalVm.Agent
