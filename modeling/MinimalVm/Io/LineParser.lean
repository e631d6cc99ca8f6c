import MinimalVm.Io.MessageReader
import MinimalVm.Protocol.Codec

/-! Parsing a line as a message.

A line is parsed as one JSON text and the value decoded; the parser of texts is
a parameter. A parser that knows the texts of a few messages stands in for it
where a connection is run.
-/

set_option autoImplicit false

namespace MinimalVm.Io

open MinimalVm.Semantics MinimalVm.Protocol MinimalVm.Json

/-- The line parser: a decoder over a parser of JSON texts. -/
def parseWith (fromSlice : Bytes → Except ParseError Json) (line : Bytes) : Item :=
  match fromSlice line with
  | .ok v => (Message.decode v).mapError fun error => ⟨error.detail⟩
  | .error cause => .error cause

theorem parseWith_text {fromSlice : Bytes → Except ParseError Json} {m : Message} {line : Bytes}
    (inverse : fromSlice line = .ok m.encode) : parseWith fromSlice line = .ok m := by
  simp only [parseWith, inverse, m.decode_encode]
  rfl

theorem parseWith_part {fromSlice : Bytes → Except ParseError Json} {line : Bytes}
    (oneText : ∀ line v, fromSlice line = .ok v → JsonText line) (noText : ¬ JsonText line) :
    ∃ cause, parseWith fromSlice line = .error cause := by
  cases parsed : fromSlice line with
  | ok v => exact absurd (oneText line v parsed) noText
  | error cause => exact ⟨cause, by simp only [parseWith, parsed]⟩

/-- A parser that knows the texts of some messages. -/
def knownText (ms : List Message) (line : Bytes) : Except ParseError Json :=
  match ms.find? fun m => m.text = line with
  | some m => .ok m.encode
  | none => .error ⟨"expected value"⟩

theorem knownText_jsonText {ms : List Message} {line : Bytes} {v : Json}
    (parsed : knownText ms line = .ok v) : JsonText line := by
  unfold knownText at parsed
  split at parsed
  · rename_i m found
    have same : m.text = line := by simpa using List.find?_some found
    exact same ▸ .of_compact m.text_compact
  · cases parsed

theorem knownText_text {ms : List Message} {m : Message}
    (known : (ms.find? fun other => other.text = m.text) = some m) : knownText ms m.text = .ok m.encode := by
  rw [knownText, known]

end MinimalVm.Io
