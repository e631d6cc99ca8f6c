/-! Polled operations and the two ends of a byte connection.

A future is modelled by what one poll of it returns and by the state the poll
leaves behind. The reading end is the finite list of results that successive
`poll_read` calls will report, followed by permanent end of file; the writing
end is an arbitrary state machine that keeps to the `AsyncWrite` contract.
-/

set_option autoImplicit false

namespace MinimalVm.Semantics

abbrev Byte := UInt8
abbrev Bytes := List Byte

inductive Poll (A : Type) where
  | pending
  | ready (value : A)
  deriving DecidableEq, Repr

namespace Poll

variable {A : Type}

def isPending : Poll A → Bool
  | .pending => true
  | .ready _ => false

def value? : Poll A → Option A
  | .pending => none
  | .ready value => some value

def map {B : Type} (f : A → B) : Poll A → Poll B
  | .pending => .pending
  | .ready value => .ready (f value)

end Poll

/-- The bytes of one read. A read of no bytes is end of file, never data. -/
structure Chunk where
  bytes : Bytes
  nonempty : bytes ≠ []
  deriving DecidableEq, Repr

/-- An input or output error, by the text it displays. -/
structure IoError where
  text : String
  deriving DecidableEq, Repr

/-- What one `poll_read` reports. A list of these is a reader; its end is
end of file for ever. -/
inductive ReadEvent where
  | pending
  | data (chunk : Chunk)
  | failed (error : IoError)
  deriving DecidableEq, Repr

/-- The bytes a reader still has to deliver, however they are split. -/
def streamOf : List ReadEvent → Bytes
  | [] => []
  | .data chunk :: rest => chunk.bytes ++ streamOf rest
  | .pending :: rest => streamOf rest
  | .failed _ :: rest => streamOf rest

/-- A writer with internal state σ. A completed write accepts a prefix of the
bytes offered, which the type of its result enforces. -/
structure AsyncWrite (σ : Type) where
  pollWrite : σ → (offered : Bytes) → Poll (Except IoError {n : Nat // n ≤ offered.length}) × σ
  pollFlush : σ → Poll (Except IoError Unit) × σ
  pollShutdown : σ → Poll (Except IoError Unit) × σ

/-- A writer that answers as its script says and then no more. -/
def scripted : AsyncWrite (List (Poll (Except IoError Nat))) where
  pollWrite script offered :=
    match script with
    | [] => (.pending, [])
    | .pending :: rest => (.pending, rest)
    | .ready (.error error) :: rest => (.ready (.error error), rest)
    | .ready (.ok n) :: rest => (.ready (.ok ⟨min n offered.length, Nat.min_le_right n offered.length⟩), rest)
  pollFlush script := (.ready (.ok ()), script)
  pollShutdown script := (.ready (.ok ()), script)

def written {limit : Nat} : Poll (Except IoError {n : Nat // n ≤ limit}) → Nat
  | .ready (.ok n) => n.val
  | .ready (.error _) | .pending => 0

-- What is recorded is only observed: a writer never sees it.
/-- The state of a writer and the bytes it has accepted so far. -/
structure Recorded (σ : Type) where
  state : σ
  accepted : Bytes

def AsyncWrite.recording {σ : Type} (w : AsyncWrite σ) : AsyncWrite (Recorded σ) where
  pollWrite this offered :=
    let polled := w.pollWrite this.state offered
    (polled.1, ⟨polled.2, this.accepted ++ offered.take (written polled.1)⟩)
  pollFlush this :=
    let polled := w.pollFlush this.state
    (polled.1, ⟨polled.2, this.accepted⟩)
  pollShutdown this :=
    let polled := w.pollShutdown this.state
    (polled.1, ⟨polled.2, this.accepted⟩)

namespace AsyncWrite

variable {σ : Type} {w : AsyncWrite σ} {this that : Recorded σ} {offered : Bytes}

theorem recording_wrote {n : {n : Nat // n ≤ offered.length}}
    (polled : w.recording.pollWrite this offered = (.ready (.ok n), that)) :
    that.accepted = this.accepted ++ offered.take n := by
  obtain ⟨outcome, left⟩ := Prod.mk.inj polled
  simp only [← left, outcome, written]

theorem recording_unwritten {outcome : Poll (Except IoError {n : Nat // n ≤ offered.length})}
    (polled : w.recording.pollWrite this offered = (outcome, that)) (none : written outcome = 0) :
    that.accepted = this.accepted := by
  obtain ⟨same, left⟩ := Prod.mk.inj polled
  simp only [← left, same, none, List.take_zero, List.append_nil]

end AsyncWrite

end MinimalVm.Semantics
