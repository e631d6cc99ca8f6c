import MinimalVm.Protocol.Message
import MinimalVm.Text.Utf8

/-! The sending end of a connection, shared by futures that send.

A message is moved into the transmit buffer at once and from there to the
writer in whatever pieces the writer accepts. What the writer has accepted and
what the buffer still holds together are the bytes emitted; `Sent` and
`Transferred` say how one poll extends them.
-/

set_option autoImplicit false

namespace MinimalVm.Io

open MinimalVm.Semantics MinimalVm.Protocol MinimalVm.Text

structure SerializeError where
  detail : String
  deriving DecidableEq, Repr

inductive SendError where
  | prepare (context : String) (cause : SerializeError)
  | write (cause : IoError)
  | disconnected
  | flush (cause : IoError)
  | closed
  deriving DecidableEq, Repr

def SendError.message : SendError → String
  | .prepare context _ => context
  | .write _ => "Failed to write to connection"
  | .disconnected => "Connection closed while sending message"
  | .flush _ => "Failed to flush connection"
  | .closed => "Tx was closed"

abbrev PollSend := Poll (Except SendError Unit)

/-- The encoding of a message, until it is moved into the transmit buffer. -/
structure Sending where
  bytes : Option Bytes
  deriving DecidableEq, Repr

def Sending.new (toVec : Message → Except SerializeError Bytes) (msg : Message) :
    Except SerializeError Sending :=
  (toVec msg).map fun bytes => ⟨some bytes⟩

/-! ## The transmit buffer -/

structure TxLocal (σ : Type) where
  writer : σ
  transmitting : Bytes

namespace TxLocal

variable {σ : Type}

def new (writer : σ) : TxLocal σ := ⟨writer, []⟩

section
variable (w : AsyncWrite σ)

def pollTransmit (this : TxLocal σ) : PollSend × TxLocal σ :=
  if this.transmitting = [] then (.ready (.ok ()), this)
  else
    match w.pollWrite this.writer this.transmitting with
    | (.pending, writer) => (.pending, { this with writer })
    | (.ready (.error error), writer) => (.ready (.error (.write error)), { this with writer })
    | (.ready (.ok n), writer) =>
      -- A writer that accepts nothing is not going to accept anything.
      if n.val = 0 then (.ready (.error .disconnected), { this with writer })
      else pollTransmit ⟨writer, this.transmitting.drop n⟩
termination_by this.transmitting.length
decreasing_by
  rename_i nonempty positive
  have := List.length_pos_iff.mpr nonempty
  simp only [List.length_drop]
  omega

/-- The writer is flushed even while bytes wait to be written to it. -/
def pollFlush (this : TxLocal σ) : PollSend × TxLocal σ :=
  let (transmitted, this) := pollTransmit w this
  let (flushed, writer) := w.pollFlush this.writer
  let this := { this with writer }
  match transmitted, flushed with
  | .ready (.ok ()), .ready (.ok ()) => (.ready (.ok ()), this)
  | .ready (.error error), _ => (.ready (.error error), this)
  | _, .ready (.error error) => (.ready (.error (.flush error)), this)
  | .pending, _ | _, .pending => (.pending, this)

/-- The backlog from which on senders wait. A test build never makes them. -/
def pushback : Nat := 1024 * 1024

def pollFlushInBg (test : Bool) (this : TxLocal σ) : PollSend × TxLocal σ :=
  match pollFlush w this with
  | (.ready (.ok ()), this) => (.ready (.ok ()), this)
  | (.ready (.error error), this) => (.ready (.error error), this)
  | (.pending, this) =>
    -- A short backlog is left for later flushes to write.
    if test = false ∧ pushback ≤ this.transmitting.length then (.pending, this)
    else (.ready (.ok ()), this)

def pollSend (test : Bool) (this : TxLocal σ) (msg : Sending) : PollSend × TxLocal σ × Sending :=
  match pollFlushInBg w test this with
  | (.pending, this) => (.pending, this, msg)
  | (.ready (.error error), this) => (.ready (.error error), this, msg)
  | (.ready (.ok ()), this) =>
    -- From here on the message is in the buffer, whatever the flush reports.
    let this :=
      match msg.bytes with
      | none => this
      | some bytes => { this with transmitting := this.transmitting ++ bytes ++ [newline] }
    let (flushed, this) := pollFlushInBg w test this
    (flushed, this, ⟨none⟩)

end
end TxLocal

/-- The shared end: open, or the reason it is not. -/
structure Tx (σ : Type) where
  shared : Except SendError (TxLocal σ)

namespace Tx

variable {σ : Type}

def new (writer : σ) : Tx σ := ⟨.ok (.new writer)⟩

def pollFlush (w : AsyncWrite σ) (this : Tx σ) : PollSend × Tx σ :=
  match this.shared with
  | .ok tx =>
    let (flushed, tx) := tx.pollFlush w
    (flushed, ⟨.ok tx⟩)
  | .error error => (.ready (.error error), this)

def pollSend (w : AsyncWrite σ) (test : Bool) (this : Tx σ) (msg : Sending) : PollSend × Tx σ × Sending :=
  match this.shared with
  | .ok tx =>
    let (sent, tx, msg) := tx.pollSend w test msg
    (sent, ⟨.ok tx⟩, msg)
  | .error error => (.ready (.error error), this, msg)

end Tx

/-! ## The futures that send -/

/-- The messages still to be moved into the buffer, or why there are none. -/
structure DoSend where
  msgs : Except SendError (List Sending)
  flush : Bool

/-- Polling may also run into the assertion that a sent message was taken. -/
inductive Polled where
  | answered (outcome : PollSend)
  | panicked

namespace DoSend

/-- The first message that cannot be encoded fails the whole request. -/
def prepareMsgs (toVec : Message → Except SerializeError Bytes) (debug : Message → String)
    (msgs : List Message) : Except SendError (List Sending) :=
  msgs.mapM fun msg => (Sending.new toVec msg).mapError
    (.prepare ("Failed to prepare message for sending: " ++ debug msg))

variable {σ : Type}

def sendAll (w : AsyncWrite σ) (test : Bool) (tx : Tx σ) : List Sending → Polled × Tx σ × List Sending
  | [] => (.answered (.ready (.ok ())), tx, [])
  | msg :: msgs =>
    match tx.pollSend w test msg with
    | (.pending, tx, msg) => (.answered .pending, tx, msg :: msgs)
    | (.ready (.error error), tx, msg) => (.answered (.ready (.error error)), tx, msg :: msgs)
    | (.ready (.ok ()), tx, msg) =>
      if msg.bytes.isNone then sendAll w test tx msgs else (.panicked, tx, msg :: msgs)

def poll (w : AsyncWrite σ) (test : Bool) (tx : Tx σ) (this : DoSend) : Polled × Tx σ × DoSend :=
  match this.msgs with
  | .error error => (.answered (.ready (.error error)), tx, this)
  | .ok msgs =>
    match sendAll w test tx msgs with
    | (.answered (.ready (.ok ())), tx, msgs) =>
      if this.flush then
        let (flushed, tx) := tx.pollFlush w
        (.answered flushed, tx, { this with msgs := .ok msgs })
      else (.answered (.ready (.ok ())), tx, { this with msgs := .ok msgs })
    | (stopped, tx, msgs) => (stopped, tx, { this with msgs := .ok msgs })

end DoSend

/-- A request to send, as the three constructors of such a future take it. -/
inductive SendRequest where
  | send (msgs : List Message)
  | sendAndFlush (msgs : List Message)
  | flush

def SendRequest.msgs : SendRequest → List Message
  | .send msgs | .sendAndFlush msgs => msgs
  | .flush => []

def SendRequest.future (toVec : Message → Except SerializeError Bytes) (debug : Message → String) :
    SendRequest → DoSend
  | .send msgs => ⟨DoSend.prepareMsgs toVec debug msgs, false⟩
  | .sendAndFlush msgs => ⟨DoSend.prepareMsgs toVec debug msgs, true⟩
  | .flush => ⟨.ok [], true⟩

/-! ## What a poll emits -/

def frame (payload : Bytes) : Bytes := payload ++ [newline]

theorem frame_nonempty (payload : Bytes) : frame payload ≠ [] :=
  List.append_ne_nil_of_right_ne_nil payload (List.cons_ne_nil _ _)

def framesOf (payloads : List Bytes) : Bytes := payloads.flatMap frame

@[simp] theorem framesOf_append (first rest : List Bytes) :
    framesOf (first ++ rest) = framesOf first ++ framesOf rest := List.flatMap_append

def Sending.payloads (this : Sending) : List Bytes := this.bytes.toList

variable {σ : Type} (w : AsyncWrite σ) (test : Bool)

/-- The bytes accepted by the writer, then those that wait for it. -/
def TxLocal.emitted (this : TxLocal (Recorded σ)) : Bytes := this.writer.accepted ++ this.transmitting

theorem TxLocal.pollTransmit_emitted (this : TxLocal (Recorded σ)) :
    (pollTransmit w.recording this).2.emitted = this.emitted := by
  fun_induction pollTransmit w.recording this with
  | case1 this => rfl
  | case2 this nonempty writer polled =>
    simp only [emitted, AsyncWrite.recording_unwritten polled rfl]
  | case3 this nonempty error writer polled =>
    simp only [emitted, AsyncWrite.recording_unwritten polled rfl]
  | case4 this nonempty n writer polled zero =>
    simp only [emitted, AsyncWrite.recording_unwritten polled zero]
  | case5 this nonempty n writer polled positive ih =>
    rw [ih]
    simp only [emitted, AsyncWrite.recording_wrote polled, List.append_assoc, List.take_append_drop]

theorem TxLocal.pollFlush_eq (this : TxLocal σ) :
    (this.pollFlush w).2 =
      ⟨(w.pollFlush (this.pollTransmit w).2.writer).2, (this.pollTransmit w).2.transmitting⟩ := by
  unfold pollFlush
  dsimp only
  split <;> rfl

theorem TxLocal.pollFlush_emitted (this : TxLocal (Recorded σ)) :
    (pollFlush w.recording this).2.emitted = this.emitted := by
  rw [pollFlush_eq, ← pollTransmit_emitted w this]
  rfl

theorem TxLocal.pollFlushInBg_emitted (this : TxLocal (Recorded σ)) :
    (pollFlushInBg w.recording test this).2.emitted = this.emitted := by
  rw [← pollFlush_emitted w this]
  unfold pollFlushInBg
  split
  · simp only [*]
  · simp only [*]
  · split <;> simp only [*]

inductive Sent (emitted : Bytes) (msg : Sending) : PollSend → Bytes → Sending → Prop
  | refused {outcome : PollSend} : outcome ≠ .ready (.ok ()) → Sent emitted msg outcome emitted msg
  | taken {outcome : PollSend} : Sent emitted msg outcome (emitted ++ framesOf msg.payloads) ⟨none⟩

theorem Sent.completed {emitted emitted' : Bytes} {msg msg' : Sending} {outcome : PollSend}
    (sent : Sent emitted msg outcome emitted' msg') (ok : outcome = .ready (.ok ())) :
    msg'.bytes = none := by
  cases sent with
  | refused failed => exact absurd ok failed
  | taken => rfl

theorem TxLocal.pollSend_sent (this : TxLocal (Recorded σ)) (msg : Sending) :
    Sent this.emitted msg (pollSend w.recording test this msg).1
      (pollSend w.recording test this msg).2.1.emitted (pollSend w.recording test this msg).2.2 := by
  have flushed := pollFlushInBg_emitted w test this
  unfold pollSend
  split
  · rename_i polled
    rw [polled] at flushed
    rw [← flushed]
    exact .refused nofun
  · rename_i polled
    rw [polled] at flushed
    rw [← flushed]
    exact .refused nofun
  · rename_i open_ polled
    rw [polled] at flushed
    obtain ⟨bytes⟩ := msg
    dsimp only
    rw [pollFlushInBg_emitted, ← flushed]
    cases bytes with
    | none =>
      have moved : Sent open_.emitted ⟨none⟩ (pollFlushInBg w.recording test open_).1 _ ⟨none⟩ := .taken
      simpa [framesOf, Sending.payloads] using moved
    | some bytes =>
      have appended : (⟨open_.writer, open_.transmitting ++ bytes ++ [newline]⟩ : TxLocal (Recorded σ)).emitted =
          open_.emitted ++ framesOf [bytes] := by
        simp [emitted, framesOf, frame]
      rw [appended]
      exact .taken

def Tx.emitted (this : Tx (Recorded σ)) : Bytes :=
  match this.shared with
  | .ok tx => tx.emitted
  | .error _ => []

theorem Tx.pollFlush_emitted (this : Tx (Recorded σ)) :
    (this.pollFlush w.recording).2.emitted = this.emitted := by
  obtain ⟨error | tx⟩ := this
  · rfl
  · exact TxLocal.pollFlush_emitted w tx

theorem Tx.pollSend_sent (this : Tx (Recorded σ)) (msg : Sending) :
    Sent this.emitted msg (this.pollSend w.recording test msg).1
      (this.pollSend w.recording test msg).2.1.emitted (this.pollSend w.recording test msg).2.2 := by
  obtain ⟨error | tx⟩ := this
  · exact .refused nofun
  · exact TxLocal.pollSend_sent w test tx msg

/-- The payloads a future has not yet moved into the buffer. -/
def DoSend.untaken (this : DoSend) : List Bytes :=
  match this.msgs with
  | .ok msgs => msgs.flatMap Sending.payloads
  | .error _ => []

def Transferred (emitted : Bytes) (before : List Bytes) (emitted' : Bytes) (after : List Bytes) : Prop :=
  ∃ taken, before = taken ++ after ∧ emitted' = emitted ++ framesOf taken

theorem Transferred.refl (emitted : Bytes) (left : List Bytes) : Transferred emitted left emitted left :=
  ⟨[], rfl, (List.append_nil _).symm⟩

theorem Sent.transferred {emitted emitted' : Bytes} {msg msg' : Sending} {outcome : PollSend}
    (sent : Sent emitted msg outcome emitted' msg') (rest : List Bytes) :
    Transferred emitted (msg.payloads ++ rest) emitted' (msg'.payloads ++ rest) := by
  cases sent with
  | refused _ => exact .refl _ _
  | taken => exact ⟨msg.payloads, rfl, rfl⟩

theorem Transferred.trans {first second third : Bytes} {before middle after : List Bytes}
    (one : Transferred first before second middle) (two : Transferred second middle third after) :
    Transferred first before third after := by
  obtain ⟨taken, rfl, rfl⟩ := one
  obtain ⟨more, rfl, rfl⟩ := two
  exact ⟨taken ++ more, by simp, by simp⟩

/-- The outcomes a future can report, given the messages it is left with. -/
def Settled (polled : Polled) (left : List Sending) : Prop :=
  polled ≠ .panicked ∧ (polled = .answered (.ready (.ok ())) → left = [])

theorem DoSend.sendAll_transferred (msgs : List Sending) (tx : Tx (Recorded σ)) :
    let result := sendAll w.recording test tx msgs
    Settled result.1 result.2.2 ∧
      Transferred tx.emitted (msgs.flatMap Sending.payloads) result.2.1.emitted
        (result.2.2.flatMap Sending.payloads) := by
  fun_induction sendAll w.recording test tx msgs with
  | case1 tx => exact ⟨⟨nofun, fun _ => rfl⟩, .refl _ _⟩
  | case2 tx msg msgs tx' msg' polled =>
    have sent := tx.pollSend_sent w test msg
    rw [polled] at sent
    exact ⟨⟨nofun, nofun⟩, sent.transferred _⟩
  | case3 tx msg msgs error tx' msg' polled =>
    have sent := tx.pollSend_sent w test msg
    rw [polled] at sent
    exact ⟨⟨nofun, nofun⟩, sent.transferred _⟩
  | case4 tx msg msgs tx' msg' polled empty ih =>
    have sent := tx.pollSend_sent w test msg
    rw [polled] at sent
    have first := sent.transferred (msgs.flatMap Sending.payloads)
    have none : msg'.payloads = [] := by simpa [Sending.payloads] using empty
    rw [none] at first
    exact ⟨ih.1, first.trans ih.2⟩
  | case5 tx msg msgs tx' msg' polled left =>
    have sent := tx.pollSend_sent w test msg
    rw [polled] at sent
    -- A completed poll took the message, so the assertion holds.
    exact absurd (Option.isNone_iff_eq_none.mpr (sent.completed rfl)) left

theorem DoSend.poll_transferred (msgs : List Sending) (flush : Bool) (tx : Tx (Recorded σ)) :
    let result := poll w.recording test tx ⟨.ok msgs, flush⟩
    ∃ left, result.2.2.msgs = .ok left ∧ Settled result.1 left ∧
      Transferred tx.emitted (msgs.flatMap Sending.payloads) result.2.1.emitted
        (left.flatMap Sending.payloads) := by
  have all := sendAll_transferred w test msgs tx
  simp only [poll]
  split
  · rename_i tx' left sent
    rw [sent] at all
    have none : left = [] := all.1.2 rfl
    cases flush with
    | true =>
      refine ⟨left, rfl, ⟨nofun, fun _ => none⟩, ?_⟩
      rw [if_pos rfl, Tx.pollFlush_emitted]
      exact all.2
    | false => exact ⟨left, rfl, ⟨nofun, fun _ => none⟩, all.2⟩
  · rename_i stopped tx' left _ sent
    rw [sent] at all
    exact ⟨left, rfl, all⟩

/-! ## What stays open -/

def Tx.isOpen (this : Tx σ) : Bool :=
  match this.shared with
  | .ok _ => true
  | .error _ => false

theorem Tx.pollFlush_open (this : Tx σ) : (this.pollFlush w).2.isOpen = this.isOpen := by
  obtain ⟨error | tx⟩ := this <;> rfl

theorem Tx.pollSend_open (this : Tx σ) (msg : Sending) :
    (this.pollSend w test msg).2.1.isOpen = this.isOpen := by
  obtain ⟨error | tx⟩ := this <;> rfl

theorem DoSend.sendAll_open (msgs : List Sending) (tx : Tx σ) :
    (sendAll w test tx msgs).2.1.isOpen = tx.isOpen := by
  fun_induction sendAll w test tx msgs with
  | case1 tx => rfl
  | case2 tx msg msgs tx' msg' polled => rw [← tx.pollSend_open w test msg, polled]
  | case3 tx msg msgs error tx' msg' polled => rw [← tx.pollSend_open w test msg, polled]
  | case4 tx msg msgs tx' msg' polled empty ih =>
    rw [ih, ← tx.pollSend_open w test msg, polled]
  | case5 tx msg msgs tx' msg' polled left =>
    rw [← tx.pollSend_open w test msg, polled]

theorem DoSend.poll_open (this : DoSend) (tx : Tx σ) : (poll w test tx this).2.1.isOpen = tx.isOpen := by
  obtain ⟨error | msgs, flush⟩ := this
  · rfl
  · rw [← sendAll_open w test msgs tx]
    simp only [poll]
    split
    · rename_i sent
      split
      · rw [sent]
        exact Tx.pollFlush_open w _
      · rw [sent]
    · rename_i sent
      rw [sent]

end MinimalVm.Io
