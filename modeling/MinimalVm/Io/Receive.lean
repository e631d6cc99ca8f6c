import MinimalVm.Io.MessageReader

/-! The receiving end of a connection, shared by receivers of several types.

A receiver first looks for its message in the queue of messages that others
passed over, then reads on and queues what it cannot use itself. `Received`
lists everything one poll can do, in terms of lines; a poll over bytes does
the same to the lines those bytes hold.
-/

set_option autoImplicit false

namespace MinimalVm.Io

open MinimalVm.Semantics MinimalVm.Protocol

/-! ## The queue of messages passed over -/

structure MsgBuffer where
  queue : List Message

namespace MsgBuffer

def new : MsgBuffer := ⟨[]⟩

def push (this : MsgBuffer) (msg : Message) : MsgBuffer := ⟨this.queue ++ [msg]⟩

/-- The scan from one index on. The entry under conversion is replaced by a
placeholder, and put back if it is refused. -/
def popFrom (M : Type) [FromMessage M] (ix : Nat) (this : MsgBuffer) : Option M × MsgBuffer :=
  if _inside : ix < this.queue.length then
    let swapped := this.queue.set ix Message.noOp
    match fromMessage (M := M) this.queue[ix] with
    | .ok m => (some m, ⟨swapped.eraseIdx ix⟩)
    | .error msg => popFrom M (ix + 1) ⟨swapped.set ix msg⟩
  else (none, this)
termination_by this.queue.length - ix
decreasing_by
  simp only [List.length_set]
  omega

def pop (M : Type) [FromMessage M] (this : MsgBuffer) : Option M × MsgBuffer := this.popFrom M 0

def close (this : MsgBuffer) : List Message × MsgBuffer := (this.queue, ⟨[]⟩)

end MsgBuffer

variable {M : Type} [FromMessage M]

def Refused (M : Type) [FromMessage M] (msgs : List Message) : Prop :=
  ∀ msg ∈ msgs, Accepts M msg = false

theorem refused_nil : Refused M [] := by simp [Refused]

theorem refused_append {first rest : List Message} :
    Refused M (first ++ rest) ↔ Refused M first ∧ Refused M rest := by
  simp [Refused, or_imp, forall_and]

theorem refused_singleton {msg : Message} : Refused M [msg] ↔ Accepts M msg = false := by
  simp [Refused]

theorem accepts_of_ok {msg : Message} {m : M} (converted : fromMessage msg = .ok m) :
    Accepts M msg = true := by simp [Accepts, converted]

theorem refused_of_error {msg back : Message} (refused : fromMessage (M := M) msg = .error back) :
    Accepts M msg = false := by simp [Accepts, refused]

inductive Popped (M : Type) [FromMessage M] : MsgBuffer → Option M × MsgBuffer → Prop
  | absent {queue : List Message} : Refused M queue → Popped M ⟨queue⟩ (none, ⟨queue⟩)
  | found {before after : List Message} {msg : Message} {m : M} : Refused M before →
      fromMessage msg = .ok m → Popped M ⟨before ++ msg :: after⟩ (some m, ⟨before ++ after⟩)

variable [LawfulFromMessage M]

theorem MsgBuffer.popFrom_popped (before after : List Message) (skipped : Refused M before) :
    Popped M ⟨before ++ after⟩ (popFrom M before.length ⟨before ++ after⟩) := by
  induction after generalizing before with
  | nil =>
    rw [popFrom, dif_neg (by simp)]
    exact .absent (by simpa using skipped)
  | cons msg after ih =>
    rw [popFrom, dif_pos (by simp)]
    simp only [List.getElem_append_right (Nat.le_refl _), Nat.sub_self,
      List.getElem_cons_zero, List.set_append_right _ _ (Nat.le_refl _), List.set_cons_zero,
      List.eraseIdx_append_of_length_le (Nat.le_refl _), List.eraseIdx_cons_zero]
    cases converted : fromMessage (M := M) msg with
    | ok m => exact .found skipped converted
    | error back =>
      -- What is put back is the message that was taken out.
      cases LawfulFromMessage.gives_back msg back converted
      have more : Refused M (before ++ [msg]) :=
        refused_append.mpr ⟨skipped, refused_singleton.mpr (refused_of_error converted)⟩
      simpa using ih (before ++ [msg]) more

theorem MsgBuffer.pop_popped (this : MsgBuffer) : Popped M this (this.pop M) :=
  popFrom_popped [] this.queue refused_nil

/-! ## One poll of a receiver -/

/-- A reader of messages and the messages read for other receivers. -/
structure RxLocal (ρ : Type) where
  reader : ρ
  msgs : MsgBuffer

abbrev PollRecv (M : Type) := Poll (Except RecvError (Option M))

namespace RxLocal

section
variable {ρ : Type} [MessageReader ρ]

def new (reader : ρ) : RxLocal ρ := ⟨reader, MsgBuffer.new⟩

/-- Read on until a message converts; the others are queued. -/
def readOn (M : Type) [FromMessage M] (this : RxLocal ρ) : PollRecv M × RxLocal ρ :=
  match _polled : MessageReader.pollReadMessage this.reader with
  | (.pending, reader) => (.pending, ⟨reader, this.msgs⟩)
  | (.ready (.error error), reader) => (.ready (.error error), ⟨reader, this.msgs⟩)
  | (.ready (.ok none), reader) => (.ready (.ok none), ⟨reader, this.msgs⟩)
  | (.ready (.ok (some msg)), reader) =>
    match fromMessage (M := M) msg with
    | .ok m => (.ready (.ok (some m)), ⟨reader, this.msgs⟩)
    | .error msg => readOn M ⟨reader, this.msgs.push msg⟩
termination_by MessageReader.unread this.reader
decreasing_by exact MessageReader.progress _polled

omit [LawfulFromMessage M] in
theorem readOn_eq (this : RxLocal ρ) :
    readOn M this =
      match MessageReader.pollReadMessage this.reader with
      | (.pending, reader) => (.pending, ⟨reader, this.msgs⟩)
      | (.ready (.error error), reader) => (.ready (.error error), ⟨reader, this.msgs⟩)
      | (.ready (.ok none), reader) => (.ready (.ok none), ⟨reader, this.msgs⟩)
      | (.ready (.ok (some msg)), reader) =>
        match fromMessage (M := M) msg with
        | .ok m => (.ready (.ok (some m)), ⟨reader, this.msgs⟩)
        | .error msg => readOn M ⟨reader, this.msgs.push msg⟩ := by
  rw [readOn]
  split <;> simp only [*]

def pollRecv (M : Type) [FromMessage M] (this : RxLocal ρ) : PollRecv M × RxLocal ρ :=
  match this.msgs.pop M with
  | (some m, msgs) => (.ready (.ok (some m)), ⟨this.reader, msgs⟩)
  | (none, msgs) => readOn M ⟨this.reader, msgs⟩

end

def close {parse : Bytes → Except ParseError Message} (this : RxLocal (MsgReader parse)) :
    (Bytes × List Message) × RxLocal (MsgReader parse) :=
  ((this.reader.close.1, this.msgs.close.1), ⟨this.reader.close.2, this.msgs.close.2⟩)

end RxLocal

def messageLines (msgs : List Message) : List ConnectionEvent := msgs.map fun msg => .line (.ok msg)

@[simp] theorem messageLines_nil : messageLines [] = [] := rfl
@[simp] theorem messageLines_cons (msg : Message) (msgs : List Message) :
    messageLines (msg :: msgs) = .line (.ok msg) :: messageLines msgs := rfl

inductive Ended (M : Type) [FromMessage M] :
    List ConnectionEvent → PollRecv M → List ConnectionEvent → Prop
  | pending {rest : List ConnectionEvent} : Ended M (.pending :: rest) .pending rest
  | eof : Ended M [] (.ready (.ok none)) []
  | failed {error : IoError} {rest : List ConnectionEvent} :
      Ended M (.failed error :: rest) (.ready (.error (.read error))) rest
  | malformed {cause : ParseError} {rest : List ConnectionEvent} :
      Ended M (.line (.error cause) :: rest) (.ready (.error (.parse cause))) rest
  | message {msg : Message} {m : M} {rest : List ConnectionEvent} : fromMessage msg = .ok m →
      Ended M (.line (.ok msg) :: rest) (.ready (.ok (some m))) rest

inductive Received (M : Type) [FromMessage M] :
    RxLocal Connection → PollRecv M × RxLocal Connection → Prop
  | queued {connection : Connection} {before after : List Message} {msg : Message} {m : M} :
      Refused M before → fromMessage msg = .ok m →
      Received M ⟨connection, ⟨before ++ msg :: after⟩⟩
        (.ready (.ok (some m)), ⟨connection, ⟨before ++ after⟩⟩)
  | read {queue passed : List Message} {last rest : List ConnectionEvent} {outcome : PollRecv M} :
      Refused M queue → Refused M passed → Ended M last outcome rest →
      Received M ⟨⟨messageLines passed ++ last⟩, ⟨queue⟩⟩ (outcome, ⟨⟨rest⟩, ⟨queue ++ passed⟩⟩)

namespace RxLocal

section
variable (events : List ConnectionEvent) (msgs : MsgBuffer)
omit [LawfulFromMessage M]

@[simp] theorem readOn_eof : readOn M ⟨(⟨[]⟩ : Connection), msgs⟩ = (.ready (.ok none), ⟨⟨[]⟩, msgs⟩) :=
  readOn_eq _

@[simp] theorem readOn_pending :
    readOn M ⟨(⟨.pending :: events⟩ : Connection), msgs⟩ = (.pending, ⟨⟨events⟩, msgs⟩) :=
  readOn_eq _

@[simp] theorem readOn_failed (error : IoError) :
    readOn M ⟨(⟨.failed error :: events⟩ : Connection), msgs⟩ =
      (.ready (.error (.read error)), ⟨⟨events⟩, msgs⟩) :=
  readOn_eq _

@[simp] theorem readOn_malformed (cause : ParseError) :
    readOn M ⟨(⟨.line (.error cause) :: events⟩ : Connection), msgs⟩ =
      (.ready (.error (.parse cause)), ⟨⟨events⟩, msgs⟩) :=
  readOn_eq _

theorem readOn_message (msg : Message) :
    readOn M ⟨(⟨.line (.ok msg) :: events⟩ : Connection), msgs⟩ =
      match fromMessage (M := M) msg with
      | .ok m => (.ready (.ok (some m)), ⟨⟨events⟩, msgs⟩)
      | .error back => readOn M ⟨⟨events⟩, msgs.push back⟩ :=
  readOn_eq _

end

theorem readOn_received (queue passed : List Message) (events : List ConnectionEvent)
    (skipped : Refused M queue) (beyond : Refused M passed) :
    Received M ⟨⟨messageLines passed ++ events⟩, ⟨queue⟩⟩
      (readOn M ⟨⟨events⟩, ⟨queue ++ passed⟩⟩) := by
  induction events generalizing passed with
  | nil => simpa using Received.read skipped beyond .eof
  | cons event events ih =>
    rcases event with _ | error | cause | msg
    · simpa using Received.read skipped beyond .pending
    · simpa using Received.read skipped beyond .failed
    · simpa using Received.read skipped beyond .malformed
    · rw [readOn_message]
      cases converted : fromMessage (M := M) msg with
      | ok m => exact .read skipped beyond (.message converted)
      | error back =>
        cases LawfulFromMessage.gives_back msg back converted
        have more : Refused M (passed ++ [msg]) :=
          refused_append.mpr ⟨beyond, refused_singleton.mpr (refused_of_error converted)⟩
        simpa [messageLines, MsgBuffer.push] using ih (passed ++ [msg]) more

theorem pollRecv_received (this : RxLocal Connection) : Received M this (this.pollRecv M) := by
  obtain ⟨connection, msgs⟩ := this
  have scan := MsgBuffer.pop_popped (M := M) msgs
  generalize popped : msgs.pop M = result at scan
  cases scan with
  | absent refused =>
    rw [pollRecv, popped]
    simpa using readOn_received _ [] connection.events refused refused_nil
  | found skipped converted =>
    rw [pollRecv, popped]
    exact .queued skipped converted

/-! ## Polls over bytes -/

section
variable {parse : Bytes → Except ParseError Message}
omit [LawfulFromMessage M]

def toLines (this : RxLocal (MsgReader parse)) : RxLocal Connection :=
  ⟨this.reader.toConnection, this.msgs⟩

theorem polled_toLines {this : RxLocal (MsgReader parse)} {reader : MsgReader parse}
    {outcome : PollMessage} (polled : MessageReader.pollReadMessage this.reader = (outcome, reader)) :
    MessageReader.pollReadMessage this.toLines.reader = (outcome, reader.toConnection) :=
  MsgReader.toConnection_polled polled

theorem readOn_toLines (this : RxLocal (MsgReader parse)) :
    readOn M this.toLines = ((readOn M this).1, (readOn M this).2.toLines) := by
  fun_induction readOn M this with
  | case1 this reader polled => rw [readOn_eq, polled_toLines polled]; rfl
  | case2 this error reader polled => rw [readOn_eq, polled_toLines polled]; rfl
  | case3 this reader polled => rw [readOn_eq, polled_toLines polled]; rfl
  | case4 this msg reader polled m converted =>
    rw [readOn_eq, polled_toLines polled]
    simp only [converted]
    rfl
  | case5 this msg reader polled back refused ih =>
    rw [readOn_eq, polled_toLines polled]
    simp only [refused]
    exact ih

/-- A poll over bytes is a poll over the lines they hold. -/
theorem pollRecv_toLines (this : RxLocal (MsgReader parse)) :
    pollRecv M this.toLines = ((pollRecv M this).1, (pollRecv M this).2.toLines) := by
  have sameQueue : this.toLines.msgs = this.msgs := rfl
  rw [pollRecv, pollRecv, sameQueue]
  rcases this.msgs.pop M with ⟨_ | m, msgs⟩
  · exact readOn_toLines ⟨this.reader, msgs⟩
  · rfl

end

end RxLocal

end MinimalVm.Io
