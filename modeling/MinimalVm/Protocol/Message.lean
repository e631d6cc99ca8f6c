import MinimalVm.Semantics.Polling

/-! The messages of the exec protocol and the types a receiver may ask for.

A typed receiver either converts a message or hands the very same message
back; this is all the queue of a shared receiving end relies on.
-/

set_option autoImplicit false

namespace MinimalVm.Protocol

open MinimalVm.Semantics

structure Exec where
  prog : String
  args : List String
  pwd : Option String
  user : Option String
  lineBufferedIo : Option Bool
  deriving DecidableEq, Repr

structure Started where
  pid : UInt32
  deriving DecidableEq, Repr

/-- The flag of a `closed` message, which has no other value. -/
inductive StdioTrue where
  | yes
  deriving DecidableEq, Repr

inductive Stdio where
  | data (bytes : Bytes)
  | privClosed (flag : StdioTrue)
  deriving DecidableEq, Repr

@[match_pattern] abbrev Stdio.closed : Stdio := .privClosed .yes

structure Exited where
  status : Int32
  deriving DecidableEq

structure Kill where
  signal : Int32
  deriving DecidableEq

structure Error where
  message : String
  deriving DecidableEq, Repr

inductive Message where
  | exec (exec : Exec)
  | started (started : Started)
  | stdin (stdio : Stdio)
  | stdout (stdio : Stdio)
  | stderr (stdio : Stdio)
  | kill (kill : Kill)
  | exited (exited : Exited)
  | error (error : Error)
  | privNoOp
  deriving DecidableEq

/-- The placeholder left in the queue while a message is being converted. -/
@[match_pattern] abbrev Message.noOp : Message := .privNoOp

/-- Convert a message or give it back. -/
class FromMessage (M : Type) where
  fromMessage : Message → Except Message M

export FromMessage (fromMessage)

/-- A refused message is given back unchanged. -/
class LawfulFromMessage (M : Type) [FromMessage M] : Prop where
  gives_back : ∀ msg back : Message, fromMessage (M := M) msg = .error back → back = msg

def Accepts (M : Type) [FromMessage M] (msg : Message) : Bool :=
  match fromMessage (M := M) msg with
  | .ok _ => true
  | .error _ => false

/-- The shape of every conversion of the crate: match one form of message and
give any other back. -/
def fromMessageWith {M : Type} (select : Message → Option M) (msg : Message) : Except Message M :=
  match select msg with
  | some m => .ok m
  | none => .error msg

theorem fromMessageWith_back {M : Type} {select : Message → Option M} {msg back : Message}
    (refused : fromMessageWith select msg = .error back) : back = msg := by
  unfold fromMessageWith at refused
  split at refused
  · cases refused
  · exact (Except.error.inj refused).symm

instance : FromMessage Exec := ⟨fromMessageWith fun | .exec exec => some exec | _ => none⟩
instance : FromMessage Started :=
  ⟨fromMessageWith fun | .started started => some started | _ => none⟩
instance : FromMessage Exited := ⟨fromMessageWith fun | .exited exited => some exited | _ => none⟩
instance : FromMessage Kill := ⟨fromMessageWith fun | .kill kill => some kill | _ => none⟩
instance : FromMessage Error := ⟨fromMessageWith fun | .error error => some error | _ => none⟩

instance : LawfulFromMessage Exec := ⟨fun _ _ => fromMessageWith_back⟩
instance : LawfulFromMessage Started := ⟨fun _ _ => fromMessageWith_back⟩
instance : LawfulFromMessage Exited := ⟨fun _ _ => fromMessageWith_back⟩
instance : LawfulFromMessage Kill := ⟨fun _ _ => fromMessageWith_back⟩
instance : LawfulFromMessage Error := ⟨fun _ _ => fromMessageWith_back⟩

/-- Asked for to receive only the end of a stream. -/
structure Closed where
  deriving DecidableEq

structure Stdin (T : Type) where
  value : T
  deriving DecidableEq

structure Stdout (T : Type) where
  value : T
  deriving DecidableEq

structure Stderr (T : Type) where
  value : T
  deriving DecidableEq

def Message.stdin? : Message → Option Stdio
  | .stdin stdio => some stdio
  | _ => none

def Message.stdout? : Message → Option Stdio
  | .stdout stdio => some stdio
  | _ => none

def Message.stderr? : Message → Option Stdio
  | .stderr stdio => some stdio
  | _ => none

/-- The four views of a stream's messages that can be asked for. -/
class StdioView (T : Type) where
  view : Stdio → Option T

instance : StdioView Stdio := ⟨some⟩
instance : StdioView Closed := ⟨fun | .closed => some ⟨⟩ | _ => none⟩
instance : StdioView Bytes := ⟨fun | .data bytes => some bytes | _ => none⟩
instance : StdioView (Option Bytes) := ⟨fun | .data bytes => some (some bytes) | .closed => some none⟩

/-- The conversion `fromStdioMessage!` generates for one stream and one view. -/
def fromStdioMessage {T M : Type} [StdioView T] (stream : Message → Option Stdio) (wrap : T → M) :
    Message → Except Message M :=
  fromMessageWith fun msg => ((stream msg).bind StdioView.view).map wrap

theorem fromStdioMessage_back {T M : Type} [StdioView T] {stream : Message → Option Stdio}
    {wrap : T → M} {msg back : Message}
    (refused : fromStdioMessage stream wrap msg = .error back) : back = msg :=
  fromMessageWith_back refused

section
variable {T : Type} [StdioView T]

instance : FromMessage (Stdin T) := ⟨fromStdioMessage Message.stdin? Stdin.mk⟩
instance : FromMessage (Stdout T) := ⟨fromStdioMessage Message.stdout? Stdout.mk⟩
instance : FromMessage (Stderr T) := ⟨fromStdioMessage Message.stderr? Stderr.mk⟩

instance : LawfulFromMessage (Stdin T) := ⟨fun _ _ => fromStdioMessage_back⟩
instance : LawfulFromMessage (Stdout T) := ⟨fun _ _ => fromStdioMessage_back⟩
instance : LawfulFromMessage (Stderr T) := ⟨fun _ _ => fromStdioMessage_back⟩

end

/-- Takes any message at all; the crate's tests receive with it. -/
structure AnyMessage where
  message : Message
  deriving DecidableEq

instance : FromMessage AnyMessage := ⟨fun msg => .ok ⟨msg⟩⟩
instance : LawfulFromMessage AnyMessage := ⟨fun _ _ refused => by cases refused⟩

inductive ViewName where
  | stdio | closed | bytes | optionBytes
  deriving DecidableEq, Repr

@[reducible] def ViewName.Carrier : ViewName → Type
  | .stdio => Stdio
  | .closed => Closed
  | .bytes => Bytes
  | .optionBytes => Option Bytes

instance : (name : ViewName) → StdioView name.Carrier
  | .stdio => inferInstanceAs (StdioView Stdio)
  | .closed => inferInstanceAs (StdioView Closed)
  | .bytes => inferInstanceAs (StdioView Bytes)
  | .optionBytes => inferInstanceAs (StdioView (Option Bytes))

/-- A choice of one of the crate's receivable types. -/
inductive Receiver where
  | exec | started | exited | kill | error | any
  | stdin (view : ViewName)
  | stdout (view : ViewName)
  | stderr (view : ViewName)
  deriving DecidableEq, Repr

@[reducible] def Receiver.Carrier : Receiver → Type
  | .exec => Exec
  | .started => Started
  | .exited => Exited
  | .kill => Kill
  | .error => Error
  | .any => AnyMessage
  | .stdin view => Stdin view.Carrier
  | .stdout view => Stdout view.Carrier
  | .stderr view => Stderr view.Carrier

instance : (receiver : Receiver) → FromMessage receiver.Carrier
  | .exec => inferInstanceAs (FromMessage Exec)
  | .started => inferInstanceAs (FromMessage Started)
  | .exited => inferInstanceAs (FromMessage Exited)
  | .kill => inferInstanceAs (FromMessage Kill)
  | .error => inferInstanceAs (FromMessage Error)
  | .any => inferInstanceAs (FromMessage AnyMessage)
  | .stdin view => inferInstanceAs (FromMessage (Stdin view.Carrier))
  | .stdout view => inferInstanceAs (FromMessage (Stdout view.Carrier))
  | .stderr view => inferInstanceAs (FromMessage (Stderr view.Carrier))

instance : (receiver : Receiver) → LawfulFromMessage receiver.Carrier
  | .exec => inferInstanceAs (LawfulFromMessage Exec)
  | .started => inferInstanceAs (LawfulFromMessage Started)
  | .exited => inferInstanceAs (LawfulFromMessage Exited)
  | .kill => inferInstanceAs (LawfulFromMessage Kill)
  | .error => inferInstanceAs (LawfulFromMessage Error)
  | .any => inferInstanceAs (LawfulFromMessage AnyMessage)
  | .stdin view => inferInstanceAs (LawfulFromMessage (Stdin view.Carrier))
  | .stdout view => inferInstanceAs (LawfulFromMessage (Stdout view.Carrier))
  | .stderr view => inferInstanceAs (LawfulFromMessage (Stderr view.Carrier))

/-- A type of receiver may overlap others, so several accept one message. -/
example : Accepts (Receiver.stdin .stdio).Carrier (.stdin .closed) = true ∧
    Accepts (Receiver.stdin .closed).Carrier (.stdin .closed) = true ∧
    Accepts (Receiver.stdin .bytes).Carrier (.stdin .closed) = false := by decide

end MinimalVm.Protocol
