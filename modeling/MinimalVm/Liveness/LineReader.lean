import MinimalVm.Agent.Splitting
import MinimalVm.Liveness.Guest

/-! Reading a connection line by line.

A reader of lines is whatever answers a poll with the next line. It is lawful if
it yields the lines of the text that the connection delivers, each without its
end. One that collects bytes until there is a line is lawful however the bytes
are delivered.
-/

set_option autoImplicit false

namespace MinimalVm.Liveness

open MinimalVm.Semantics MinimalVm.Text

abbrev PollLine := Poll (Except IoError (Option Text))

/-- A poll that is pending leaves less to wait for. -/
structure LineReader (ρ : Type) where
  new : List ReadEvent → ρ
  pollNextLine : ρ → PollLine × ρ
  waits : ρ → Nat
  progress : ∀ r, (pollNextLine r).1 = .pending → waits (pollNextLine r).2 < waits r

theorem readLine_progress (reads : List ReadEvent) (buffer : Bytes)
    (waits : (Agent.readLine reads buffer).1 = .pending) : (Agent.readLine reads buffer).2.1.length < reads.length := by
  induction reads generalizing buffer with
  | nil =>
    unfold Agent.readLine at waits
    split at waits
    · cases waits
    · cases waits
  | cons event reads ih =>
    unfold Agent.readLine at waits ⊢
    split at waits
    · cases waits
    · rename_i absent
      cases event with
      | pending => exact Nat.lt_succ_self _
      | failed error => cases waits
      | data chunk => exact Nat.lt_succ_of_lt (ih _ waits)

/-- The reading end of a connection and the bytes that were read past the last line. -/
structure BufferedLines where
  reads : List ReadEvent
  buffer : Bytes

/-- A line is complete at its end or at the end of file, and has to be UTF-8. -/
def decodeLine : Except IoError (Option Bytes) → Except IoError (Option Text)
  | .error error => .error error
  | .ok none => .ok none
  | .ok (some payload) =>
    match fromUtf8 payload with
    | none => .error ⟨"stream did not contain valid UTF-8"⟩
    | some text => .ok (some (chompLine text))

namespace BufferedLines

def pollNextLine (this : BufferedLines) : PollLine × BufferedLines :=
  let polled := Agent.readLine this.reads this.buffer
  (polled.1.map decodeLine, ⟨polled.2.1, polled.2.2⟩)

theorem pollNextLine_progress (this : BufferedLines) (waits : this.pollNextLine.1 = .pending) :
    this.pollNextLine.2.reads.length < this.reads.length := by
  apply readLine_progress
  unfold pollNextLine at waits
  dsimp only at waits
  cases polled : (Agent.readLine this.reads this.buffer).1 with
  | pending => rfl
  | ready result =>
    rw [polled] at waits
    cases waits

def reader : LineReader BufferedLines where
  new reads := ⟨reads, []⟩
  pollNextLine := pollNextLine
  waits this := this.reads.length
  progress := pollNextLine_progress

end BufferedLines

end MinimalVm.Liveness
