import MinimalVm.Protocol.Message
import MinimalVm.Text.Segments
import MinimalVm.Text.Utf8

/-! Reading messages from a byte connection, one line each.

`MsgReader` collects bytes until a newline and parses what stands before it.
Successive polls of it report the lines of the byte stream in order, whatever
reads delivered them: the reader refines a `Connection`, which reports whole
lines, and everything above it may be argued about lines alone.
-/

set_option autoImplicit false

namespace MinimalVm.Io

open MinimalVm.Semantics MinimalVm.Protocol MinimalVm.Text

structure ParseError where
  detail : String
  deriving DecidableEq, Repr

inductive RecvError where
  | parse (cause : ParseError)
  | read (cause : IoError)
  deriving DecidableEq, Repr

/-- The outermost context, which is all that is ever displayed. -/
def RecvError.message : RecvError → String
  | .parse _ => "Failed to parse message"
  | .read _ => "Failed to read from reader"

abbrev PollMessage := Poll (Except RecvError (Option Message))

/-- Anything that can be polled for messages. Each message taken must leave
less to read, since a receiver polls on while it is offered other messages. -/
class MessageReader (ρ : Type) where
  pollReadMessage : ρ → PollMessage × ρ
  unread : ρ → Nat
  progress : ∀ {r r' : ρ} {msg : Message},
    pollReadMessage r = (.ready (.ok (some msg)), r') → unread r' < unread r

/-! ## The reader of bytes -/

/-- The reading end of a connection and the bytes read past the last line. -/
structure MsgReader (parse : Bytes → Except ParseError Message) where
  reader : List ReadEvent
  buffer : Bytes

namespace MsgReader

variable {parse : Bytes → Except ParseError Message}

def new (reader : List ReadEvent) : MsgReader parse := ⟨reader, []⟩

/-- A buffer whose last line is open can still grow at end of file. -/
def openEnd (buffer : Bytes) : Nat :=
  if buffer = [] ∨ buffer.getLast? = some newline then 0 else 3

theorem openEnd_le (buffer : Bytes) : openEnd buffer ≤ 3 := by
  unfold openEnd
  split <;> omega

theorem openEnd_tail (b : Byte) (t : Bytes) : openEnd t ≤ openEnd (b :: t) := by
  cases t with
  | nil => simp [openEnd]
  | cons c t => simp [openEnd, List.getLast?_cons_cons]

@[simp] theorem openEnd_ended (buffer : Bytes) : openEnd (buffer ++ [newline]) = 0 := by
  simp [openEnd]

theorem openEnd_free {buffer : Bytes} (nonempty : buffer ≠ []) (free : newline ∉ buffer) :
    openEnd buffer = 3 := by
  have notLast : buffer.getLast? ≠ some newline := fun last => free (List.mem_of_getLast? last)
  simp [openEnd, nonempty, notLast]

/-- Bounds the passes of the read loop: reading a chunk may leave its last line open. -/
def work : List ReadEvent → Nat
  | [] => 0
  | .data chunk :: reader => 2 * chunk.bytes.length + 4 + work reader
  | .pending :: reader | .failed _ :: reader => 1 + work reader

def pollReadMessage (this : MsgReader parse) : PollMessage × MsgReader parse :=
  match found : position newline this.buffer with
  | some 0 => pollReadMessage ⟨this.reader, this.buffer.drop 1⟩ -- empty line, just skip it
  | some ix =>
    let msg := parse (this.buffer.take ix)
    (.ready ((msg.map some).mapError .parse), ⟨this.reader, this.buffer.drop (ix + 1)⟩)
  | none =>
    match this with
    | ⟨.pending :: reader, buffer⟩ => (.pending, ⟨reader, buffer⟩)
    | ⟨.failed error :: reader, buffer⟩ => (.ready (.error (.read error)), ⟨reader, buffer⟩)
    | ⟨.data chunk :: reader, buffer⟩ => pollReadMessage ⟨reader, buffer ++ chunk.bytes⟩
    | ⟨[], buffer⟩ =>
      -- End of file: what is left over is parsed as if a newline followed it.
      if buffer = [] then (.ready (.ok none), ⟨[], []⟩)
      else pollReadMessage ⟨[], buffer ++ [newline]⟩
termination_by work this.reader + 2 * this.buffer.length + openEnd this.buffer
decreasing_by
  · obtain ⟨-, split⟩ := position_some found
    simp only [List.take_zero, List.nil_append, Nat.zero_add] at split
    have tail := openEnd_tail newline (this.buffer.drop 1)
    rw [← split] at tail
    have shorter := congrArg List.length split
    simp only [List.length_cons] at shorter
    show work this.reader + _ + _ < _
    omega
  · have opened := openEnd_le (buffer ++ chunk.bytes)
    simp only [work, List.length_append]
    omega
  · rename_i nonempty
    have opened := openEnd_free nonempty (position_none.mp found)
    simp only [openEnd_ended, opened, List.length_append, List.length_singleton]
    omega

theorem pollReadMessage_end : (⟨[], []⟩ : MsgReader parse).pollReadMessage = (.ready (.ok none), ⟨[], []⟩) := by
  unfold pollReadMessage
  rfl

def close (this : MsgReader parse) : Bytes × MsgReader parse := (this.buffer, ⟨this.reader, []⟩)

end MsgReader

/-! ## The reader of lines -/

/-- A non-empty line of the stream: a message or the reason it is none. -/
abbrev Item := Except ParseError Message

inductive ConnectionEvent where
  | pending
  | failed (error : IoError)
  | line (item : Item)

structure Connection where
  events : List ConnectionEvent

def ConnectionEvent.item? : ConnectionEvent → Option Item
  | .line item => some item
  | .pending | .failed _ => none

namespace Connection

def pollReadMessage : Connection → PollMessage × Connection
  | ⟨[]⟩ => (.ready (.ok none), ⟨[]⟩)
  | ⟨.pending :: events⟩ => (.pending, ⟨events⟩)
  | ⟨.failed error :: events⟩ => (.ready (.error (.read error)), ⟨events⟩)
  | ⟨.line item :: events⟩ => (.ready ((item.map some).mapError .parse), ⟨events⟩)

def items (this : Connection) : List Item := this.events.filterMap ConnectionEvent.item?

theorem pollReadMessage_progress {this that : Connection} {msg : Message}
    (polled : this.pollReadMessage = (.ready (.ok (some msg)), that)) :
    that.events.length < this.events.length := by
  obtain ⟨events⟩ := this
  rcases events with _ | ⟨_ | _ | item, events⟩ <;> simp [pollReadMessage] at polled
  exact polled.2 ▸ Nat.lt_succ_self _

end Connection

instance : MessageReader Connection where
  pollReadMessage := Connection.pollReadMessage
  unread this := this.events.length
  progress := Connection.pollReadMessage_progress

/-! ## The reader of bytes refines the reader of lines -/

def linesOf (parse : Bytes → Except ParseError Message) : List ReadEvent → Bytes → List ConnectionEvent
  -- End of file ends the last line as a newline would.
  | [], buffer => (segments newline buffer).map (.line ∘ parse)
  | .data chunk :: reader, buffer => linesOf parse reader (buffer ++ chunk.bytes)
  | .pending :: reader, buffer =>
    (terminated newline buffer).map (.line ∘ parse) ++
      .pending :: linesOf parse reader (remainder newline buffer)
  | .failed error :: reader, buffer =>
    (terminated newline buffer).map (.line ∘ parse) ++
      .failed error :: linesOf parse reader (remainder newline buffer)

theorem linesOf_line (parse : Bytes → Except ParseError Message) (reader : List ReadEvent)
    {w : Bytes} (free : newline ∉ w) (t : Bytes) :
    linesOf parse reader (w ++ newline :: t) =
      (if w = [] then [] else [.line (parse w)]) ++ linesOf parse reader t := by
  induction reader generalizing t with
  | nil =>
    simp only [linesOf, segments_line free, List.map_append]
    split <;> rfl
  | cons event reader ih =>
    cases event with
    | data chunk => simpa only [linesOf, List.append_assoc, List.cons_append] using ih (t ++ chunk.bytes)
    | pending =>
      simp only [linesOf, terminated_line free, remainder_line free, List.map_append, List.append_assoc]
      split <;> rfl
    | failed error =>
      simp only [linesOf, terminated_line free, remainder_line free, List.map_append, List.append_assoc]
      split <;> rfl

theorem linesOf_skip (parse : Bytes → Except ParseError Message) (reader : List ReadEvent) (t : Bytes) :
    linesOf parse reader (newline :: t) = linesOf parse reader t := by
  simpa using linesOf_line parse reader (w := []) List.not_mem_nil t

theorem linesOf_eof (parse : Bytes → Except ParseError Message) {buffer : Bytes}
    (free : newline ∉ buffer) :
    linesOf parse [] (buffer ++ [newline]) = linesOf parse [] buffer := by
  rw [linesOf_line parse [] free]
  by_cases empty : buffer = []
  · simp [empty]
  · simp [linesOf, segments_free free empty, empty]

/-- The lines reported are those of the whole stream, however it is split. -/
theorem items_linesOf (parse : Bytes → Except ParseError Message) (reader : List ReadEvent)
    (buffer : Bytes) :
    (Connection.mk (linesOf parse reader buffer)).items =
      (segments newline (buffer ++ streamOf reader)).map parse := by
  have lines (ws : List Bytes) :
      (ws.map (ConnectionEvent.line ∘ parse)).filterMap ConnectionEvent.item? = ws.map parse := by
    induction ws with
    | nil => rfl
    | cons w ws ih => simp [ConnectionEvent.item?, ih]
  induction reader generalizing buffer with
  | nil => simp only [Connection.items, linesOf, lines, streamOf, List.append_nil]
  | cons event reader ih =>
    cases event with
    | data chunk => simpa only [linesOf, streamOf, List.append_assoc] using ih (buffer ++ chunk.bytes)
    | pending =>
      -- The open line is kept in the buffer, where what follows completes it.
      have rest := ih (remainder newline buffer)
      simp only [Connection.items] at rest
      simp only [Connection.items, linesOf, List.filterMap_append, lines, List.filterMap_cons,
        ConnectionEvent.item?, rest, streamOf, segments_append buffer, List.map_append]
    | failed error =>
      have rest := ih (remainder newline buffer)
      simp only [Connection.items] at rest
      simp only [Connection.items, linesOf, List.filterMap_append, lines, List.filterMap_cons,
        ConnectionEvent.item?, rest, streamOf, segments_append buffer, List.map_append]

namespace MsgReader

variable {parse : Bytes → Except ParseError Message}

def toConnection (this : MsgReader parse) : Connection := ⟨linesOf parse this.reader this.buffer⟩

/-- A poll of the byte reader is a poll of its lines. -/
theorem pollReadMessage_refines (this : MsgReader parse) :
    this.pollReadMessage.1 = this.toConnection.pollReadMessage.1 ∧
      this.pollReadMessage.2.toConnection = this.toConnection.pollReadMessage.2 := by
  fun_induction pollReadMessage this with
  -- An empty line is skipped without a read.
  | case1 this found ih =>
    obtain ⟨-, split⟩ := position_some found
    simp only [List.take_zero, List.nil_append, Nat.zero_add] at split
    have same : this.toConnection = (⟨this.reader, this.buffer.drop 1⟩ : MsgReader parse).toConnection :=
      congrArg Connection.mk
        ((congrArg (linesOf parse this.reader) split).trans (linesOf_skip parse this.reader _))
    rw [same]
    exact ih
  | case2 this ix positive found msg =>
    obtain ⟨free, split⟩ := position_some found
    have nonempty : this.buffer.take ix ≠ [] := position_take_ne found positive
    have first := linesOf_line parse this.reader free (this.buffer.drop (ix + 1))
    rw [if_neg nonempty, ← split] at first
    have lines : this.toConnection = ⟨.line msg :: linesOf parse this.reader (this.buffer.drop (ix + 1))⟩ :=
      congrArg Connection.mk first
    rw [lines]
    exact ⟨rfl, rfl⟩
  | case3 reader buffer found =>
    have free := position_none.mp found
    simp [toConnection, linesOf, terminated_free free, remainder_free free, Connection.pollReadMessage]
  | case4 error reader buffer found =>
    have free := position_none.mp found
    simp [toConnection, linesOf, terminated_free free, remainder_free free, Connection.pollReadMessage]
  | case5 chunk reader buffer found ih => exact ih
  | case6 found => exact ⟨rfl, rfl⟩
  -- The end of file ends the last line, which is read in another pass.
  | case7 buffer found nonempty ih =>
    have same : (⟨[], buffer⟩ : MsgReader parse).toConnection =
        (⟨[], buffer ++ [newline]⟩ : MsgReader parse).toConnection :=
      congrArg Connection.mk (linesOf_eof parse (position_none.mp found)).symm
    rw [same]
    exact ih

theorem toConnection_polled {this that : MsgReader parse} {outcome : PollMessage}
    (polled : this.pollReadMessage = (outcome, that)) :
    this.toConnection.pollReadMessage = (outcome, that.toConnection) := by
  obtain ⟨same, left⟩ := this.pollReadMessage_refines
  rw [polled] at same left
  exact Prod.ext same.symm left.symm

instance : MessageReader (MsgReader parse) where
  pollReadMessage := pollReadMessage
  unread this := this.toConnection.events.length
  progress polled := Connection.pollReadMessage_progress (toConnection_polled polled)

theorem items_toConnection (this : MsgReader parse) :
    this.toConnection.items = (segments newline (this.buffer ++ streamOf this.reader)).map parse :=
  items_linesOf parse this.reader this.buffer

end MsgReader
end MinimalVm.Io
