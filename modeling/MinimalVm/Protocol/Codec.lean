import MinimalVm.Json.Decode
import MinimalVm.Json.Print
import MinimalVm.Protocol.Message

/-! The JSON encoding of messages.

A payload is written as a string when all its bytes are ASCII and as an array
of integers otherwise, and either form is read back. Options and arguments that
are empty are left out and default to empty.
-/

set_option autoImplicit false

namespace MinimalVm.Protocol

open MinimalVm.Semantics MinimalVm.Text MinimalVm.Json

/-! ## Payloads -/

namespace DataBytes

/-- Bytes as a serializer writes them that knows nothing of text. -/
def intArray (data : Bytes) : Json := .arr (data.map fun b => .int b.toNat)

def serialize (data : Bytes) : Json := if isAscii data then .str (ofAscii data) else intArray data

/-- A byte array or a UTF-8 string. -/
def deserialize : Decoder Bytes
  | .str s => .ok (utf8 s)
  | .arr elements => elements.mapM decodeU8
  | _ => .error (.invalidType "a byte array or a UTF-8 string")

theorem deserialize_intArray (data : Bytes) : deserialize (intArray data) = .ok data :=
  mapM_map_ok decodeU8_toNat data

theorem deserialize_serialize (data : Bytes) : deserialize (serialize data) = .ok data := by
  unfold serialize
  split
  · rename_i ascii
    exact congrArg Except.ok (utf8_ofAscii ascii)
  · exact deserialize_intArray data

theorem deserialize_rejects_element {elements : List Json} {v : Json} (member : v ∈ elements)
    (other : ∀ n : Nat, n ≤ 255 → v ≠ .int n) : Rejects deserialize (.arr elements) :=
  mapM_rejects member (decodeU8_rejects other)

theorem deserialize_rejects_other {v : Json} (noString : ∀ s, v ≠ .str s)
    (noArray : ∀ elements, v ≠ .arr elements) : Rejects deserialize v := by
  cases v with
  | str s => exact absurd rfl (noString s)
  | arr elements => exact absurd rfl (noArray elements)
  | null | bool | int | float | obj => exact ⟨_, rfl⟩

end DataBytes

def StdioTrue.encode : StdioTrue → Json
  | .yes => .bool true

def StdioTrue.decode (v : Json) : Except DecodeError StdioTrue := do
  match ← decodeBool v with
  | true => .ok .yes
  | false => .error (.custom "Expected true")

def Stdio.encode : Stdio → Json
  | .data bytes => .obj [("data", DataBytes.serialize bytes)]
  | .privClosed flag => .obj [("closed", flag.encode)]

def Stdio.decode : Decoder Stdio :=
  decodeEnum [("data", newtype DataBytes.deserialize .data), ("closed", newtype StdioTrue.decode .privClosed)]

/-! ## Records -/

/-- An entry that is written only when there is something to write. -/
def entryIf (name : String) : Option Json → List (String × Json)
  | some v => [(name, v)]
  | none => []

def Exec.encode (exec : Exec) : Json :=
  .obj (("prog", .str exec.prog) ::
    (entryIf "args" (if exec.args.isEmpty then none else some (.arr (exec.args.map .str))) ++
      entryIf "pwd" (exec.pwd.map .str) ++ entryIf "user" (exec.user.map .str) ++
      entryIf "line_buffered_io" (exec.lineBufferedIo.map .bool)))

namespace Exec

structure Fields where
  prog : Option String := none
  args : Option (List String) := none
  pwd : Option (Option String) := none
  user : Option (Option String) := none
  lineBufferedIo : Option (Option Bool) := none

inductive FieldName where
  | prog | args | pwd | user | lineBufferedIo | ignore

def FieldName.of (key : String) : FieldName :=
  if key = "prog" then .prog
  else if key = "args" then .args
  else if key = "pwd" then .pwd
  else if key = "user" then .user
  else if key = "line_buffered_io" then .lineBufferedIo
  else .ignore

def visitMap (seen : Fields) : List (String × Json) → Except DecodeError Fields
  | [] => .ok seen
  | (key, v) :: rest =>
    match FieldName.of key with
    | .prog => do visitMap { seen with prog := ← field "prog" seen.prog decodeString v } rest
    | .args => do visitMap { seen with args := ← field "args" seen.args (decodeVec decodeString) v } rest
    | .pwd => do visitMap { seen with pwd := ← field "pwd" seen.pwd (decodeOption decodeString) v } rest
    | .user => do visitMap { seen with user := ← field "user" seen.user (decodeOption decodeString) v } rest
    | .lineBufferedIo => do
      let met ← field "line_buffered_io" seen.lineBufferedIo (decodeOption decodeBool) v
      visitMap { seen with lineBufferedIo := met } rest
    | .ignore => visitMap seen rest

/-- Every field but the first may be left out. -/
def Fields.finish (fields : Fields) (missing : DecodeError) : Except DecodeError Exec := do
  let prog ← required missing fields.prog
  return ⟨prog, fields.args.getD [], fields.pwd.getD none, fields.user.getD none,
    fields.lineBufferedIo.getD none⟩

-- An array holds the fields in order; those left out at its end get defaults.
def visitSeq (elements : List Json) : Except DecodeError Exec := do
  let (prog, elements) ← nextElement decodeString elements
  let prog ← required (.invalidLength 0 "struct Exec with 5 elements") prog
  let (args, elements) ← nextElement (decodeVec decodeString) elements
  let (pwd, elements) ← nextElement (decodeOption decodeString) elements
  let (user, elements) ← nextElement (decodeOption decodeString) elements
  let (lineBufferedIo, elements) ← nextElement (decodeOption decodeBool) elements
  let fields : Fields := ⟨some prog, args, pwd, user, lineBufferedIo⟩
  endSeq elements (← fields.finish .expectedValue)

def decode : Decoder Exec
  | .obj entries => do (← visitMap {} entries).finish (.missingField "prog")
  | .arr elements => visitSeq elements
  | _ => .error (.invalidType "struct Exec")

end Exec

def Started.encode (started : Started) : Json := .obj [("pid", .int started.pid.toNat)]

def Started.decode (v : Json) : Except DecodeError Started :=
  (decodeSingle "struct Started" "pid" decodeU32 v).map Started.mk

def Exited.encode (exited : Exited) : Json := .obj [("status", .int exited.status.toInt)]

def Exited.decode (v : Json) : Except DecodeError Exited :=
  (decodeSingle "struct Exited" "status" decodeI32 v).map Exited.mk

def Kill.encode (kill : Kill) : Json := .obj [("signal", .int kill.signal.toInt)]

def Kill.decode (v : Json) : Except DecodeError Kill :=
  (decodeSingle "struct Kill" "signal" decodeI32 v).map Kill.mk

def Error.encode (error : Error) : Json := .obj [("message", .str error.message)]

def Error.decode (v : Json) : Except DecodeError Error :=
  (decodeSingle "struct Error" "message" decodeString v).map Error.mk

/-! ## Messages -/

def Message.encode : Message → Json
  | .exec value => .obj [("exec", value.encode)]
  | .started value => .obj [("started", value.encode)]
  | .stdin value => .obj [("stdin", value.encode)]
  | .stdout value => .obj [("stdout", value.encode)]
  | .stderr value => .obj [("stderr", value.encode)]
  | .kill value => .obj [("kill", value.encode)]
  | .exited value => .obj [("exited", value.encode)]
  | .error value => .obj [("error", value.encode)]
  | .privNoOp => .obj [("private-noop", .null)]

def Message.decode : Decoder Message :=
  decodeEnum [("exec", newtype Exec.decode .exec), ("started", newtype Started.decode .started),
    ("stdin", newtype Stdio.decode .stdin), ("stdout", newtype Stdio.decode .stdout),
    ("stderr", newtype Stdio.decode .stderr), ("kill", newtype Kill.decode .kill),
    ("exited", newtype Exited.decode .exited), ("error", newtype Error.decode .error),
    ("private-noop", newtype decodeUnit fun _ => .privNoOp)]

theorem Message.encode_obj (msg : Message) : ∃ entries, msg.encode = .obj entries := by
  cases msg <;> exact ⟨_, rfl⟩

/-- The compact text of a message; there is no floating-point number in one. -/
def Message.text (msg : Message) : Bytes := print (fun _ => [48]) msg.encode

theorem Message.text_compact (msg : Message) : CompactText msg.encode msg.text :=
  print_compact (fun _ => zero_number) msg.encode

/-! ## Nothing is lost -/

theorem StdioTrue.decode_encode (flag : StdioTrue) : decode flag.encode = .ok flag := by
  cases flag
  rfl

theorem Stdio.decode_encode (stdio : Stdio) : decode stdio.encode = .ok stdio := by
  cases stdio with
  | data bytes => exact decodeEnum_newtype rfl (DataBytes.deserialize_serialize bytes)
  | privClosed flag => exact decodeEnum_newtype rfl flag.decode_encode

namespace Exec

theorem visitMap_prog (prog : String) (rest : List (String × Json)) :
    visitMap {} (("prog", .str prog) :: rest) = visitMap { prog := some prog } rest := rfl

theorem visitMap_args {seen : Fields} (unseen : seen.args = none) (args : List String)
    (rest : List (String × Json)) :
    visitMap seen (entryIf "args" (if args.isEmpty then none else some (.arr (args.map .str))) ++ rest) =
      visitMap { seen with args := if args.isEmpty then none else some args } rest := by
  obtain ⟨_, met, _, _, _⟩ := seen
  cases unseen
  have decoded : decodeVec decodeString (.arr (args.map .str)) = .ok args :=
    mapM_map_ok (fun _ : String => rfl) args
  cases args with
  | nil => rfl
  | cons arg args =>
    have name : FieldName.of "args" = .args := rfl
    simp only [List.isEmpty_cons, Bool.false_eq_true, if_false, entryIf, List.singleton_append, visitMap,
      name, field, Option.isSome_none, decoded]
    rfl

theorem visitMap_pwd {seen : Fields} (unseen : seen.pwd = none) (pwd : Option String)
    (rest : List (String × Json)) :
    visitMap seen (entryIf "pwd" (pwd.map .str) ++ rest) =
      visitMap { seen with pwd := pwd.map some } rest := by
  obtain ⟨_, _, met, _, _⟩ := seen
  cases unseen
  cases pwd <;> rfl

theorem visitMap_user {seen : Fields} (unseen : seen.user = none) (user : Option String)
    (rest : List (String × Json)) :
    visitMap seen (entryIf "user" (user.map .str) ++ rest) =
      visitMap { seen with user := user.map some } rest := by
  obtain ⟨_, _, _, met, _⟩ := seen
  cases unseen
  cases user <;> rfl

theorem visitMap_lineBufferedIo {seen : Fields} (unseen : seen.lineBufferedIo = none)
    (lineBufferedIo : Option Bool) :
    visitMap seen (entryIf "line_buffered_io" (lineBufferedIo.map .bool)) =
      .ok { seen with lineBufferedIo := lineBufferedIo.map some } := by
  obtain ⟨_, _, _, _, met⟩ := seen
  cases unseen
  cases lineBufferedIo <;> rfl

theorem decode_encode (exec : Exec) : decode exec.encode = .ok exec := by
  obtain ⟨prog, args, pwd, user, lineBufferedIo⟩ := exec
  simp only [encode, decode, List.append_assoc]
  rw [visitMap_prog, visitMap_args rfl, visitMap_pwd rfl, visitMap_user rfl, visitMap_lineBufferedIo rfl]
  have flatten {A : Type} (value : Option A) : (value.map some).getD none = value := by cases value <;> rfl
  have sameArgs : (if args = [] then none else some args).getD [] = args := by cases args <;> rfl
  simp [Fields.finish, required, flatten, sameArgs, bind, Except.bind, pure, Except.pure]

end Exec

theorem Started.decode_encode (started : Started) : decode started.encode = .ok started := by
  rw [encode, decode, decodeSingle_field (decodeU32_toNat started.pid)]
  rfl

theorem Exited.decode_encode (exited : Exited) : decode exited.encode = .ok exited := by
  rw [encode, decode, decodeSingle_field (decodeI32_toInt exited.status)]
  rfl

theorem Kill.decode_encode (kill : Kill) : decode kill.encode = .ok kill := by
  rw [encode, decode, decodeSingle_field (decodeI32_toInt kill.signal)]
  rfl

theorem Error.decode_encode (error : Error) : decode error.encode = .ok error := rfl

theorem Message.decode_encode (msg : Message) : decode msg.encode = .ok msg := by
  cases msg with
  | exec value => exact decodeEnum_newtype rfl value.decode_encode
  | started value => exact decodeEnum_newtype rfl value.decode_encode
  | stdin value => exact decodeEnum_newtype rfl value.decode_encode
  | stdout value => exact decodeEnum_newtype rfl value.decode_encode
  | stderr value => exact decodeEnum_newtype rfl value.decode_encode
  | kill value => exact decodeEnum_newtype rfl value.decode_encode
  | exited value => exact decodeEnum_newtype rfl value.decode_encode
  | error value => exact decodeEnum_newtype rfl value.decode_encode
  | privNoOp => rfl

/-! ## The payloads of the three streams -/

/-- A stream, by the name and the constructor of its messages. -/
def streams : List (String × (Stdio → Message)) :=
  [("stdin", .stdin), ("stdout", .stdout), ("stderr", .stderr)]

def streamEntry (stream key : String) (v : Json) : Json := .obj [(stream, .obj [(key, v)])]

theorem stream_lookup {stream : String × (Stdio → Message)} (member : stream ∈ streams) {stdio : Json} :
    (∀ value, Stdio.decode stdio = .ok value →
      Message.decode (.obj [(stream.1, stdio)]) = .ok (stream.2 value)) ∧
    (Rejects Stdio.decode stdio → Rejects Message.decode (.obj [(stream.1, stdio)])) := by
  simp only [streams, List.mem_cons, List.not_mem_nil, or_false] at member
  rcases member with rfl | rfl | rfl
  all_goals exact ⟨fun _ => decodeEnum_newtype rfl, decodeEnum_rejects rfl⟩

theorem stream_encode {stream : String × (Stdio → Message)} (member : stream ∈ streams) (stdio : Stdio) :
    (stream.2 stdio).encode = .obj [(stream.1, stdio.encode)] := by
  simp only [streams, List.mem_cons, List.not_mem_nil, or_false] at member
  rcases member with rfl | rfl | rfl <;> rfl

/-- Every message is decoded from its encoding. A payload is decoded from its
encoding, a string if and only if it is ASCII, and from the array of its bytes;
anything that is neither a string nor an array of bytes is rejected, and so is
a `closed` that is false. -/
theorem codec_lossless :
    (∀ msg : Message, Message.decode msg.encode = .ok msg) ∧
    ∀ stream ∈ streams,
      (∀ b : Bytes,
        (stream.2 (.data b)).encode = streamEntry stream.1 "data" (DataBytes.serialize b) ∧
        ((∃ s, DataBytes.serialize b = .str s) ↔ isAscii b = true) ∧
        (isAscii b = false → DataBytes.serialize b = DataBytes.intArray b) ∧
        Message.decode (streamEntry stream.1 "data" (DataBytes.serialize b)) = .ok (stream.2 (.data b)) ∧
        Message.decode (streamEntry stream.1 "data" (DataBytes.intArray b)) = .ok (stream.2 (.data b))) ∧
      (∀ elements v, v ∈ elements → (∀ n : Nat, n ≤ 255 → v ≠ .int n) →
        Rejects Message.decode (streamEntry stream.1 "data" (.arr elements))) ∧
      (∀ v, (∀ s, v ≠ .str s) → (∀ elements, v ≠ .arr elements) →
        Rejects Message.decode (streamEntry stream.1 "data" v)) ∧
      Rejects Message.decode (streamEntry stream.1 "closed" (.bool false)) := by
  refine ⟨Message.decode_encode, fun stream member => ⟨fun b => ⟨?_, ?_, ?_, ?_, ?_⟩, ?_, ?_, ?_⟩⟩
  · exact stream_encode member (.data b)
  · cases ascii : isAscii b <;> simp [DataBytes.serialize, DataBytes.intArray, ascii]
  · intro ascii
    simp [DataBytes.serialize, ascii]
  · exact (stream_lookup member).1 (.data b) (decodeEnum_newtype rfl (DataBytes.deserialize_serialize b))
  · exact (stream_lookup member).1 (.data b) (decodeEnum_newtype rfl (DataBytes.deserialize_intArray b))
  · intro elements v inside other
    exact (stream_lookup member).2 (decodeEnum_rejects rfl (DataBytes.deserialize_rejects_element inside other))
  · intro v noString noArray
    exact (stream_lookup member).2 (decodeEnum_rejects rfl (DataBytes.deserialize_rejects_other noString noArray))
  · exact (stream_lookup member).2 (decodeEnum_rejects rfl ⟨_, rfl⟩)

theorem codec_lossless_stdin :
    Message.decode (streamEntry "stdin" "data" (.arr [.int 104, .int 200])) = .ok (.stdin (.data [104, 200])) ∧
      Rejects Message.decode (streamEntry "stdin" "data" (.arr [.int 104, .int 256])) := by
  have stdin := codec_lossless.2 ("stdin", .stdin) List.mem_cons_self
  refine ⟨(stdin.1 [104, 200]).2.2.2.2, stdin.2.1 [.int 104, .int 256] (.int 256) (by simp) ?_⟩
  intro n small same
  have value := Json.int.inj same
  omega

end MinimalVm.Protocol
