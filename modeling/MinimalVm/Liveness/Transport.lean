import MinimalVm.Json.Print
import MinimalVm.Liveness.Codec
import MinimalVm.Liveness.LineReader
import MinimalVm.Liveness.Report

/-! Status reports over a connection.

The sending end writes a line for each status into a buffer and flushes it; the
receiving end reads lines and parses them. The buffer and the reader of lines
are whatever keeps to their contracts, and so are the printer and the parser of
JSON texts.
-/

set_option autoImplicit false

namespace MinimalVm.Liveness

open MinimalVm.Semantics MinimalVm.Text MinimalVm.Json

/-! ## The buffer in front of the connection -/

/-- What a writer has accepted was delivered or is held, and a flush that has
succeeded holds nothing back. -/
structure Buffers {σ : Type} (w : AsyncWrite σ) (delivered held : σ → Bytes) : Prop where
  write : ∀ s offered, delivered (w.pollWrite s offered).2 ++ held (w.pollWrite s offered).2 =
    delivered s ++ held s ++ offered.take (written (w.pollWrite s offered).1)
  flush : ∀ s, delivered (w.pollFlush s).2 ++ held (w.pollFlush s).2 = delivered s ++ held s
  flushed : ∀ s, (w.pollFlush s).1 = .ready (.ok ()) → held (w.pollFlush s).2 = []

def Sending.rest : Sending → Bytes
  | .line left => left ++ [10]
  | .newline left => left
  | .flush => []

section
variable {σ : Type} {w : AsyncWrite σ} {delivered held : σ → Bytes}

theorem Buffers.unwritten (buffers : Buffers w delivered held) {s s' : σ} {offered : Bytes}
    {outcome : Poll (Except IoError {n : Nat // n ≤ offered.length})} (polled : w.pollWrite s offered = (outcome, s'))
    (none : written outcome = 0) : delivered s' ++ held s' = delivered s ++ held s := by
  have wrote := buffers.write s offered
  rw [polled, none, List.take_zero, List.append_nil] at wrote
  exact wrote

theorem pollWriteAll_conserves (buffers : Buffers w delivered held) (writer : σ) (left : Bytes) :
    let polled := pollWriteAll w writer left
    delivered polled.2.2 ++ held polled.2.2 ++ polled.2.1 = delivered writer ++ held writer ++ left ∧
      (polled.1 = .ready (.ok ()) → polled.2.1 = []) := by
  fun_induction pollWriteAll w writer left with
  | case1 writer => exact ⟨rfl, fun _ => rfl⟩
  | case2 writer left nonempty writer' polled =>
    dsimp only
    rw [buffers.unwritten polled rfl]
    exact ⟨rfl, nofun⟩
  | case3 writer left nonempty error writer' polled =>
    dsimp only
    rw [buffers.unwritten polled rfl]
    exact ⟨rfl, nofun⟩
  | case4 writer left nonempty n writer' polled zero =>
    dsimp only
    rw [buffers.unwritten polled zero]
    exact ⟨rfl, nofun⟩
  | case5 writer left nonempty n writer' polled positive ih =>
    refine ⟨ih.1.trans ?_, ih.2⟩
    have wrote := buffers.write writer left
    rw [polled] at wrote
    rw [wrote, List.append_assoc]
    exact congrArg _ (List.take_append_drop n.val left)

/-- What has been accepted and what is left to be written is always the same,
and a status that has been sent is delivered. -/
def Conserves (delivered held : σ → Bytes) (all : Bytes) (polled : Poll (Except SendError Unit) × Sending × σ) : Prop :=
  delivered polled.2.2 ++ held polled.2.2 ++ polled.2.1.rest = all ∧
    (polled.1 = .ready (.ok ()) → polled.2.1.rest = [] ∧ held polled.2.2 = [])

theorem pollFlush_conserves (buffers : Buffers w delivered held) (writer : σ) :
    Conserves delivered held (delivered writer ++ held writer) (pollFlush w writer) := by
  have kept := buffers.flush writer
  have empties := buffers.flushed writer
  unfold pollFlush
  split
  · rename_i polled
    rw [polled] at kept
    exact ⟨(List.append_nil _).trans kept, nofun⟩
  · rename_i polled
    rw [polled] at kept
    exact ⟨(List.append_nil _).trans kept, nofun⟩
  · rename_i polled
    rw [polled] at kept empties
    exact ⟨(List.append_nil _).trans kept, fun _ => ⟨rfl, empties rfl⟩⟩

theorem pollNewline_conserves (buffers : Buffers w delivered held) (writer : σ) (left : Bytes) :
    Conserves delivered held (delivered writer ++ held writer ++ left) (pollNewline w writer left) := by
  have all := pollWriteAll_conserves buffers writer left
  unfold pollNewline
  split
  · rename_i polled
    rw [polled] at all
    exact ⟨all.1, nofun⟩
  · rename_i polled
    rw [polled] at all
    exact ⟨all.1, nofun⟩
  · rename_i written writer' polled
    rw [polled] at all
    obtain ⟨kept, empties⟩ := all
    rw [← kept, show written = [] from empties rfl, List.append_nil]
    exact pollFlush_conserves buffers writer'

theorem Sending.poll_conserves (buffers : Buffers w delivered held) (writer : σ) (sending : Sending) :
    Conserves delivered held (delivered writer ++ held writer ++ sending.rest) (sending.poll w writer) := by
  cases sending with
  | line left =>
    have all := pollWriteAll_conserves buffers writer left
    unfold Sending.poll
    dsimp only
    rw [Sending.rest, ← List.append_assoc]
    split
    · rename_i polled
      rw [polled] at all
      exact ⟨(List.append_assoc _ _ _).symm.trans (congrArg (· ++ [10]) all.1), nofun⟩
    · rename_i polled
      rw [polled] at all
      exact ⟨(List.append_assoc _ _ _).symm.trans (congrArg (· ++ [10]) all.1), nofun⟩
    · rename_i written writer' polled
      rw [polled] at all
      obtain ⟨kept, empties⟩ := all
      rw [← kept, show written = [] from empties rfl, List.append_nil]
      exact pollNewline_conserves buffers writer' [10]
  | newline left => exact pollNewline_conserves buffers writer left
  | flush =>
    have all := pollFlush_conserves buffers writer
    rw [Sending.rest, List.append_nil]
    exact all

end

/-! ## The sending end -/

inductive Wire.TxPhase where
  | idle
  | sending (status : Wire.Status) (sending : Sending)
  | failed (error : SendError)

structure Wire.Tx (σ : Type) where
  writer : σ
  phase : Wire.TxPhase
  sent : List Wire.Status

/-- A call with a status, or a poll of the call that is under way. -/
inductive Wire.TxStep where
  | send (status : Wire.Status)
  | poll

namespace Wire

section
variable {σ : Type} (w : AsyncWrite σ) (toJson : Json → Except IoError Text)

namespace Tx

def new (writer : σ) : Tx σ := ⟨writer, .idle, []⟩

def step (this : Tx σ) : TxStep → Option (Tx σ)
  | .send status =>
    match this.phase with
    | .idle =>
      match toJson (Message.encode (.status status)) with
      | .error cause => some { this with phase := .failed (.serializing cause) }
      | .ok line => some { this with phase := .sending status (.line (encodeText line)) }
    | .sending _ _ | .failed _ => none
  | .poll =>
    match this.phase with
    | .sending status sending =>
      match sending.poll w this.writer with
      | (.pending, sending, writer) => some { this with writer, phase := .sending status sending }
      -- With the call goes what was left to write, and the line may be cut off.
      | (.ready (.error error), _, writer) => some { this with writer, phase := .failed error }
      | (.ready (.ok ()), _, writer) => some ⟨writer, .idle, this.sent ++ [status]⟩
    | .idle | .failed _ => none

end Tx

def lineOf (status : Status) : Text := (toJson (Message.encode (.status status))).toOption.getD []

theorem lineOf_eq {toJson : Json → Except IoError Text} {status : Status} {line : Text}
    (written : toJson (Message.encode (.status status)) = .ok line) : lineOf toJson status = line := by
  rw [lineOf, written]
  rfl

def framesOf (statuses : List Status) : Bytes :=
  encodeText (statuses.flatMap fun status => lineOf toJson status ++ ['\n'])

/-- Between two calls everything that was sent is delivered, and during one what
is accepted and what is left of its status come to all of it. -/
def Tx.Delivers (delivered held : σ → Bytes) (this : Tx σ) : Prop :=
  match this.phase with
  | .idle => delivered this.writer = framesOf toJson this.sent ∧ held this.writer = []
  | .sending status sending =>
    delivered this.writer ++ held this.writer ++ sending.rest = framesOf toJson (this.sent ++ [status])
  | .failed _ => True

variable {w toJson} {delivered held : σ → Bytes}

theorem framesOf_snoc {status : Status} {line : Text} (written : toJson (Message.encode (.status status)) = .ok line)
    (sent : List Status) : framesOf toJson (sent ++ [status]) = framesOf toJson sent ++ (encodeText line ++ [10]) := by
  rw [framesOf, List.flatMap_append, List.flatMap_singleton, encodeText_append, lineOf_eq written, encodeText_append]
  rfl

theorem Tx.Delivers.step (buffers : Buffers w delivered held) {tx tx' : Tx σ} {label : TxStep}
    (before : tx.Delivers toJson delivered held) (moved : tx.step w toJson label = some tx') :
    tx'.Delivers toJson delivered held := by
  obtain ⟨writer, phase, sent⟩ := tx
  cases label with
  | send status =>
    cases phase with
    | idle =>
      obtain ⟨all, none⟩ := before
      dsimp only [Tx.step] at moved
      split at moved
      · cases moved
        trivial
      · rename_i line written
        cases moved
        show delivered writer ++ held writer ++ (encodeText line ++ [10]) = framesOf toJson (sent ++ [status])
        dsimp only at all none
        rw [framesOf_snoc written, all, none, List.append_nil]
    | sending _ _ | failed _ => cases moved
  | poll =>
    cases phase with
    | sending status sending =>
      obtain ⟨kept, empties⟩ := sending.poll_conserves buffers writer
      dsimp only [Tx.step] at moved
      split at moved
      · rename_i polled
        cases moved
        rw [polled] at kept
        exact kept.trans before
      · cases moved
        trivial
      · rename_i polled
        cases moved
        rw [polled] at kept empties
        -- A call that succeeds has written its status and flushed.
        obtain ⟨written, none⟩ := empties rfl
        have all := kept.trans before
        rw [written, none, List.append_nil, List.append_nil] at all
        exact ⟨all, none⟩
    | idle | failed _ => cases moved

end

/-! ## The receiving end -/

inductive RecvError where
  | deserializing (cause : DecodeError)
  | reading (cause : IoError)
  deriving DecidableEq, Repr

def RecvError.message : RecvError → String
  | .deserializing _ => "deserializing liveness message"
  | .reading _ => "reading liveness line"

section
variable {ρ : Type} (lines : LineReader ρ) (fromJson : Text → Except DecodeError Json)

def parseMessage (line : Text) : Except DecodeError Message :=
  match fromJson line with
  | .error cause => .error cause
  | .ok v => Message.decode v

def received (line : Text) : Except RecvError (Option Status) :=
  match parseMessage fromJson line with
  | .error cause => .error (.deserializing cause)
  | .ok (.status status) => .ok (some status)

def pollRecv (r : ρ) : Poll (Except RecvError (Option Status)) × ρ :=
  match lines.pollNextLine r with
  | (.pending, r) => (.pending, r)
  | (.ready (.ok (some line)), r) => (.ready (received fromJson line), r)
  | (.ready (.ok none), r) => (.ready (.ok none), r)
  | (.ready (.error cause), r) => (.ready (.error (.reading cause)), r)

theorem pollRecv_progress (r : ρ) (waits : (pollRecv lines fromJson r).1 = .pending) :
    lines.waits (pollRecv lines fromJson r).2 < lines.waits r := by
  have progress := lines.progress r
  unfold pollRecv at waits ⊢
  generalize lines.pollNextLine r = polled at progress waits ⊢
  obtain ⟨outcome, r'⟩ := polled
  match outcome with
  | .pending => exact progress rfl
  | .ready (.ok (some line)) => cases waits
  | .ready (.ok none) => cases waits
  | .ready (.error cause) => cases waits

/-- A call that is awaited is polled until it is ready. -/
def recv (r : ρ) : Except RecvError (Option Status) × ρ :=
  match _polled : (pollRecv lines fromJson r).1 with
  | .pending => recv (pollRecv lines fromJson r).2
  | .ready result => (result, (pollRecv lines fromJson r).2)
termination_by lines.waits r
decreasing_by exact pollRecv_progress lines fromJson r _polled

def recvs : Nat → ρ → List (Except RecvError (Option Status))
  | 0, _ => []
  | n + 1, r => (recv lines fromJson r).1 :: recvs n (recv lines fromJson r).2

variable {lines fromJson} {yields : ρ → List Text → Prop}

def first (fromJson : Text → Except DecodeError Json) : List Text → Except RecvError (Option Status)
  | [] => .ok none
  | line :: _ => received fromJson line

end

/-! ## From one end to the other -/

/-- A value is written as compact text, and read back from it. -/
def Lossless (toJson : Json → Except IoError Text) (fromJson : Text → Except DecodeError Json) (v : Json) : Prop :=
  ∃ line, toJson v = .ok line ∧ CompactText v (encodeText line) ∧ fromJson line = .ok v

section
variable {toJson : Json → Except IoError Text} {fromJson : Text → Except DecodeError Json}

/-- The line of a status is one line, which ends in a brace. -/
theorem lineOf_whole {status : Status} (lossless : Lossless toJson fromJson (Message.encode (.status status))) :
    '\n' ∉ lineOf toJson status ∧ chompLine (lineOf toJson status ++ ['\n']) = lineOf toJson status := by
  obtain ⟨line, written, compact, -⟩ := lossless
  rw [lineOf_eq written]
  refine ⟨mt newline_encodeText.mpr (newline_compact compact), ?_⟩
  rcases chompLine_cases line with same | returned
  · exact same
  -- A carriage return at the end would go with the newline.
  · exfalso
    obtain ⟨first, ends⟩ := object_ends compact
    rw [returned, encodeText_append] at ends
    have last : encodeText ['\r'] = [closeBrace] := (List.append_inj' ends rfl).2
    exact absurd last (by decide)

theorem received_lineOf {status : Status} (finite : isFinite status.cpuPercent = true)
    (lossless : Lossless toJson fromJson (Message.encode (.status status))) :
    received fromJson (lineOf toJson status) = .ok (some status) := by
  obtain ⟨line, written, -, inverse⟩ := lossless
  have decoded : Message.decode (Message.encode (.status status)) = .ok (.status status) :=
    Message.decode_form finite status.form_encode
  rw [received, parseMessage, lineOf_eq written, inverse]
  dsimp only
  rw [decoded]

end

theorem accepts_all (offered : Bytes) : offered.length ≤ offered.length := Nat.le_refl _

def holding : AsyncWrite (Bytes × Bytes) where
  pollWrite this offered := (.ready (.ok ⟨offered.length, accepts_all offered⟩), (this.1, this.2 ++ offered))
  pollFlush this := (.ready (.ok ()), (this.1 ++ this.2, []))
  pollShutdown this := (.ready (.ok ()), this)

theorem holding_buffers : Buffers holding Prod.fst Prod.snd where
  write this offered := by simp [holding, written]
  flush this := List.append_nil _
  flushed _ _ := rfl

/-- There is no other number with a fraction in this status. -/
def printZero : UInt64 → Bytes := fun _ => [48, 46, 48]

theorem printZero_number (bits : UInt64) : NumberText (printZero bits) := by
  have zero : Digits [48] := ⟨List.cons_ne_nil _ _, fun b member => List.mem_singleton.mp member ▸ rfl⟩
  exact .parts (.inl rfl : ([] : List UInt8) = [] ∨ _) ⟨zero, fun _ => rfl⟩ (.some zero) .none

end Wire

end MinimalVm.Liveness
