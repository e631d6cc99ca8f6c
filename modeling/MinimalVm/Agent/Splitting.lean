import MinimalVm.Agent.Pipe
import MinimalVm.Semantics.Execution
import MinimalVm.Text.Cuts

/-! How the output of a child is cut into payloads.

Calls that read one after another share the pipe and the buffer. A call that is
pending has changed nothing but these two, so dropping it loses nothing, and
the payloads returned are determined by the stream however it is delivered.
-/

set_option autoImplicit false

namespace MinimalVm.Agent

open MinimalVm.Semantics MinimalVm.Text

/-! ## Calls -/

/-- What a call that was pending in its read does when it is polled again. -/
def resumeLine : List ReadEvent → Bytes → PollOutput × List ReadEvent × Bytes
  | [], buffer => (.ready (.ok (if buffer = [] then none else some buffer)), [], [])
  | .pending :: reads, buffer => (.pending, reads, buffer)
  | .failed error :: reads, buffer => (.ready (.error error), reads, buffer)
  | .data chunk :: reads, buffer => readLine reads (buffer ++ chunk.bytes)

def resumeLineOrChunk (lineBuffered : Bool) (reads : List ReadEvent) (buffer : Bytes) :
    PollOutput × List ReadEvent × Bytes :=
  if lineBuffered then resumeLine reads buffer else readChunk reads buffer

structure Calls where
  reads : List ReadEvent
  buffer : Bytes
  waiting : Bool
  returned : List (Except IoError (Option Bytes))

inductive CallStep where
  | poll
  | drop
  deriving DecidableEq, Repr

namespace Calls

def new (reads : List ReadEvent) : Calls := ⟨reads, [], false, []⟩

/-- A poll of the call that is waiting, or else of the next one. -/
def poll (lineBuffered : Bool) (this : Calls) : Calls :=
  let polled :=
    if this.waiting then resumeLineOrChunk lineBuffered this.reads this.buffer
    else readLineOrChunk lineBuffered this.reads this.buffer
  match polled.1 with
  | .pending => ⟨polled.2.1, polled.2.2, true, this.returned⟩
  | .ready result => ⟨polled.2.1, polled.2.2, false, this.returned ++ [result]⟩

def step (lineBuffered : Bool) (this : Calls) : CallStep → Option Calls
  | .poll => some (this.poll lineBuffered)
  | .drop => if this.waiting then some { this with waiting := false } else none

def left (this : Calls) : Bytes := this.buffer ++ streamOf this.reads

end Calls

/-- The payloads returned before the first `None`. -/
def payloadsOf : List (Except IoError (Option Bytes)) → List Bytes
  | .ok (some payload) :: rest => payload :: payloadsOf rest
  | [] | .ok none :: _ | .error _ :: _ => []

def Calls.payloads (this : Calls) : List Bytes := payloadsOf this.returned

def Steady (reads : List ReadEvent) : Prop := ∀ error, .failed error ∉ reads

theorem Steady.tail {event : ReadEvent} {reads : List ReadEvent} (steady : Steady (event :: reads)) :
    Steady reads := fun error member => steady error (List.mem_cons_of_mem event member)

/-! ## One poll -/

inductive Polled (lineBuffered : Bool) (reads : List ReadEvent) (buffer : Bytes) :
    PollOutput × List ReadEvent × Bytes → Prop
  | waits {reads' : List ReadEvent} {buffer' : Bytes} : reads ≠ [] → Steady reads' →
      buffer' ++ streamOf reads' = buffer ++ streamOf reads → (lineBuffered = true → newline ∉ buffer') →
      Polled lineBuffered reads buffer (.pending, reads', buffer')
  | returns {payload : Bytes} {reads' : List ReadEvent} {buffer' : Bytes} : Steady reads' → payload ≠ [] →
      payload ++ (buffer' ++ streamOf reads') = buffer ++ streamOf reads →
      (lineBuffered = true → cutAfter newline (buffer ++ streamOf reads) =
        payload :: cutAfter newline (buffer' ++ streamOf reads')) →
      Polled lineBuffered reads buffer (.ready (.ok (some payload)), reads', buffer')
  | ends : reads = [] → buffer = [] → Polled lineBuffered reads buffer (.ready (.ok none), [], [])

theorem Polled.of_left {lineBuffered : Bool} {reads reads' : List ReadEvent} {buffer buffer' : Bytes}
    {result : PollOutput × List ReadEvent × Bytes} (polled : Polled lineBuffered reads' buffer' result)
    (same : buffer' ++ streamOf reads' = buffer ++ streamOf reads) (more : buffer' ≠ []) (open_ : reads ≠ []) :
    Polled lineBuffered reads buffer result := by
  cases polled with
  | waits _ steady kept free => exact .waits open_ steady (kept.trans same) free
  | returns steady nonempty split cut => exact .returns steady nonempty (split.trans same) (same ▸ cut)
  | ends eof empty => exact absurd empty more

theorem polled_eof {lineBuffered : Bool} {buffer : Bytes} (free : lineBuffered = true → newline ∉ buffer) :
    Polled lineBuffered [] buffer (.ready (.ok (if buffer = [] then none else some buffer)), [], []) := by
  split
  · exact .ends rfl ‹_›
  · rename_i nonempty
    refine .returns nofun nonempty (by simp [streamOf]) fun lines => ?_
    simpa [streamOf] using cutAfter_free (free lines) nonempty

theorem polled_line {reads : List ReadEvent} {buffer : Bytes} {pos : Nat} (steady : Steady reads)
    (found : position newline buffer = some pos) :
    Polled true reads buffer (.ready (.ok (some (buffer.take (pos + 1)))), reads, buffer.drop (pos + 1)) := by
  obtain ⟨free, split⟩ := position_some found
  have same : buffer.take (pos + 1) ++ buffer.drop (pos + 1) =
      (buffer.take pos ++ [newline]) ++ buffer.drop (pos + 1) := by
    rw [List.take_append_drop, List.append_assoc]
    exact split
  have line : buffer.take (pos + 1) = buffer.take pos ++ [newline] := List.append_cancel_right same
  refine .returns steady ?_ ?_ fun _ => ?_
  · rw [line]
    exact List.append_ne_nil_of_right_ne_nil _ (List.cons_ne_nil _ _)
  · rw [← List.append_assoc, List.take_append_drop]
  · rw [line, ← cutAfter_line free, ← List.cons_append, ← List.append_assoc, ← split]

theorem readLine_polled {reads : List ReadEvent} (buffer : Bytes) (steady : Steady reads) :
    Polled true reads buffer (readLine reads buffer) := by
  induction reads generalizing buffer with
  | nil =>
    unfold readLine
    split
    · exact polled_line steady ‹_›
    · rename_i absent
      exact polled_eof fun _ => position_none.mp absent
  | cons event reads ih =>
    unfold readLine
    split
    · exact polled_line steady ‹_›
    · rename_i absent
      cases event with
      | pending => exact .waits nofun steady.tail rfl fun _ => position_none.mp absent
      | failed error => exact absurd List.mem_cons_self (steady error)
      | data chunk =>
        have more : buffer ++ chunk.bytes ≠ [] := List.append_ne_nil_of_right_ne_nil _ chunk.nonempty
        exact (ih (buffer ++ chunk.bytes) steady.tail).of_left (List.append_assoc _ _ _) more nofun

theorem readChunk_polled {reads : List ReadEvent} (buffer : Bytes) (steady : Steady reads) :
    Polled false reads buffer (readChunk reads buffer) := by
  cases reads with
  | nil => exact polled_eof nofun
  | cons event reads =>
    cases event with
    | pending => exact .waits nofun steady.tail rfl nofun
    | failed error => exact absurd List.mem_cons_self (steady error)
    | data chunk =>
      refine .returns steady.tail (List.append_ne_nil_of_right_ne_nil _ chunk.nonempty) ?_ nofun
      exact List.append_assoc _ _ _

theorem readLineOrChunk_polled {lineBuffered : Bool} {reads : List ReadEvent} (buffer : Bytes)
    (steady : Steady reads) : Polled lineBuffered reads buffer (readLineOrChunk lineBuffered reads buffer) := by
  cases lineBuffered with
  | true => exact readLine_polled buffer steady
  | false => exact readChunk_polled buffer steady

theorem resume_eq {lineBuffered : Bool} (reads : List ReadEvent) {buffer : Bytes}
    (free : lineBuffered = true → newline ∉ buffer) :
    resumeLineOrChunk lineBuffered reads buffer = readLineOrChunk lineBuffered reads buffer := by
  cases lineBuffered with
  | false => rfl
  | true =>
    have absent : position newline buffer = none := position_none.mpr (free rfl)
    show resumeLine reads buffer = readLine reads buffer
    rw [readLine.eq_def]
    simp only [absent]
    cases reads with
    | nil => rfl
    | cons event reads => cases event <;> rfl

/-! ## All calls -/

/-- A stream on its way through the calls: what they have returned are the first
of its pieces, and nothing follows the end of file. -/
structure Splitting (lineBuffered : Bool) (stream : Bytes) (calls : Calls) : Prop where
  steady : Steady calls.reads
  resumes : calls.waiting = true → lineBuffered = true → newline ∉ calls.buffer
  returned : ∃ n, calls.returned = calls.payloads.map (.ok ∘ some) ++ List.replicate n (.ok none) ∧
    (n ≠ 0 → calls.reads = [] ∧ calls.buffer = [])
  whole : calls.payloads.flatten ++ calls.left = stream
  nonempty : ∀ payload ∈ calls.payloads, payload ≠ []
  lines : lineBuffered = true → calls.payloads ++ cutAfter newline calls.left = cutAfter newline stream

theorem Splitting.new {lineBuffered : Bool} {reads : List ReadEvent} (steady : Steady reads) :
    Splitting lineBuffered (streamOf reads) (.new reads) where
  steady := steady
  resumes := nofun
  returned := ⟨0, rfl, nofun⟩
  whole := rfl
  nonempty := nofun
  lines _ := rfl

theorem payloadsOf_returned (payloads : List Bytes) (n : Nat) :
    payloadsOf (payloads.map (.ok ∘ some) ++ List.replicate n (.ok none)) = payloads := by
  induction payloads with
  | nil => cases n <;> rfl
  | cons payload payloads ih => exact congrArg (payload :: ·) ih

theorem payloadsOf_more {returned : List (Except IoError (Option Bytes))} {payloads : List Bytes}
    (same : returned = payloads.map (.ok ∘ some)) (payload : Bytes) :
    payloadsOf (returned ++ [.ok (some payload)]) = payloads ++ [payload] := by
  have more : returned ++ [.ok (some payload)] =
      (payloads ++ [payload]).map (.ok ∘ some) ++ List.replicate 0 (.ok none) := by
    rw [same]
    simp
  rw [more, payloadsOf_returned]

theorem payloadsOf_last {returned : List (Except IoError (Option Bytes))} {payloads : List Bytes} {n : Nat}
    (same : returned = payloads.map (.ok ∘ some) ++ List.replicate n (.ok none)) :
    payloadsOf (returned ++ [.ok none]) = payloads := by
  rw [same, List.append_assoc, ← List.replicate_succ', payloadsOf_returned]

section
variable {lineBuffered : Bool} {stream : Bytes} {calls : Calls}

/-- However a call is polled, it does what a call from the start would do. -/
theorem Splitting.poll_eq (splitting : Splitting lineBuffered stream calls) :
    calls.poll lineBuffered =
      match readLineOrChunk lineBuffered calls.reads calls.buffer with
      | (.pending, reads, buffer) => ⟨reads, buffer, true, calls.returned⟩
      | (.ready result, reads, buffer) => ⟨reads, buffer, false, calls.returned ++ [result]⟩ := by
  have same : (if calls.waiting then resumeLineOrChunk lineBuffered calls.reads calls.buffer
      else readLineOrChunk lineBuffered calls.reads calls.buffer) =
      readLineOrChunk lineBuffered calls.reads calls.buffer := by
    split
    · exact resume_eq _ (splitting.resumes ‹_›)
    · rfl
  unfold Calls.poll
  rw [same]
  dsimp only
  generalize readLineOrChunk lineBuffered calls.reads calls.buffer = polled
  obtain ⟨_ | result, reads, buffer⟩ := polled <;> rfl

theorem Splitting.poll (splitting : Splitting lineBuffered stream calls) :
    Splitting lineBuffered stream (calls.poll lineBuffered) := by
  have polled : Polled lineBuffered calls.reads calls.buffer _ := readLineOrChunk_polled _ splitting.steady
  rw [splitting.poll_eq]
  generalize readLineOrChunk lineBuffered calls.reads calls.buffer = result at polled
  obtain ⟨n, returned, eof⟩ := splitting.returned
  cases polled with
  | waits more steady kept free =>
    -- There is more to come, so no call has returned `None`.
    have going : n = 0 := Nat.eq_zero_of_not_pos fun some => more (eof (Nat.ne_of_gt some)).1
    refine ⟨steady, fun _ => free, ⟨n, returned, fun some => absurd going some⟩, ?_, splitting.nonempty, ?_⟩
    · exact (congrArg (calls.payloads.flatten ++ ·) kept).trans splitting.whole
    · intro lines
      show calls.payloads ++ cutAfter newline (_ ++ _) = _
      rw [kept]
      exact splitting.lines lines
  | @returns payload reads' buffer' steady nonempty split cut =>
    have going : n = 0 := by
      refine Nat.eq_zero_of_not_pos fun some => nonempty ?_
      obtain ⟨done, empty⟩ := eof (Nat.ne_of_gt some)
      rw [done, empty] at split
      exact (List.append_eq_nil_iff.mp split).1
    subst going
    have exactly : calls.returned = calls.payloads.map (.ok ∘ some) := returned.trans (List.append_nil _)
    have payloads : Calls.payloads ⟨reads', buffer', false, calls.returned ++ [.ok (some payload)]⟩ =
        calls.payloads ++ [payload] := payloadsOf_more exactly payload
    refine ⟨steady, nofun, ⟨0, ?_, nofun⟩, ?_, ?_, fun lines => ?_⟩
    · rw [payloads, List.map_append, ← exactly]
      simp
    · rw [payloads, ← splitting.whole]
      simp [Calls.left, ← split]
    · rw [payloads]
      intro other member
      rcases List.mem_append.mp member with earlier | last
      · exact splitting.nonempty other earlier
      · exact List.mem_singleton.mp last ▸ nonempty
    · rw [payloads, ← splitting.lines lines, Calls.left, Calls.left, cut lines]
      exact List.append_assoc _ _ _
  | ends done empty =>
    have payloads : Calls.payloads ⟨[], [], false, calls.returned ++ [.ok none]⟩ = calls.payloads :=
      payloadsOf_last returned
    -- At the end everything has been returned, however often `None` is.
    have drained : calls.left = [] := by
      rw [Calls.left, done, empty]
      rfl
    refine ⟨nofun, nofun, ⟨n + 1, ?_, fun _ => ⟨rfl, rfl⟩⟩, ?_, ?_, fun lines => ?_⟩
    · rw [payloads, List.replicate_succ', ← List.append_assoc, ← returned]
    · rw [payloads, ← splitting.whole, drained]
      rfl
    · rw [payloads]
      exact splitting.nonempty
    · rw [payloads, ← splitting.lines lines, drained]
      rfl

theorem Splitting.drop (splitting : Splitting lineBuffered stream calls) :
    Splitting lineBuffered stream { calls with waiting := false } :=
  { splitting with resumes := nofun }

theorem Splitting.step {calls' : Calls} {label : CallStep} (splitting : Splitting lineBuffered stream calls)
    (moved : calls.step lineBuffered label = some calls') : Splitting lineBuffered stream calls' := by
  cases label with
  | poll =>
    cases moved
    exact splitting.poll
  | drop =>
    simp only [Calls.step] at moved
    split at moved
    · cases moved
      exact splitting.drop
    · cases moved

theorem splitting_run {reads : List ReadEvent} (steady : Steady reads) {steps : List CallStep}
    (run : execute (Calls.step lineBuffered) (.new reads) steps = some calls) :
    Splitting lineBuffered (streamOf reads) calls :=
  invariant_execute (Splitting lineBuffered (streamOf reads)) (fun _ _ _ before moved => before.step moved)
    (.new steady) run

/-- `None` is returned just when the pipe has ended and the buffer is empty. -/
theorem Splitting.none_iff (splitting : Splitting lineBuffered stream calls) :
    (calls.poll lineBuffered).returned = calls.returned ++ [.ok none] ↔ calls.reads = [] ∧ calls.buffer = [] := by
  rw [splitting.poll_eq]
  have polled : Polled lineBuffered calls.reads calls.buffer _ := readLineOrChunk_polled _ splitting.steady
  generalize readLineOrChunk lineBuffered calls.reads calls.buffer = result at polled
  cases polled with
  | waits more steady kept free =>
    refine ⟨fun same => ?_, fun done => absurd done.1 more⟩
    simp at same
  | returns steady nonempty split cut =>
    refine ⟨fun same => ?_, fun done => ?_⟩
    · simp at same
    · rw [done.1, done.2] at split
      exact absurd (List.append_eq_nil_iff.mp split).1 nonempty
  | ends done empty => exact ⟨fun _ => ⟨done, empty⟩, fun _ => rfl⟩

end

/-- What calls that share a pipe and a buffer return of a stream: payloads that
make it up, and `None` when it is over. By lines these are the stream cut after
each newline. -/
structure Split (lineBuffered : Bool) (stream : Bytes) (calls : Calls) : Prop where
  returned : ∃ n, calls.returned = calls.payloads.map (.ok ∘ some) ++ List.replicate n (.ok none)
  whole : calls.payloads.flatten ++ calls.left = stream
  nonempty : ∀ payload ∈ calls.payloads, payload ≠ []
  terminated : lineBuffered = true → ∀ first payload rest, calls.payloads = first ++ payload :: rest →
    rest ≠ [] → ∃ w, newline ∉ w ∧ payload = w ++ [newline]
  ended : .ok none ∈ calls.returned → calls.payloads.flatten = stream ∧
    (lineBuffered = true → calls.payloads = cutAfter newline stream)
  none_iff : (calls.poll lineBuffered).returned = calls.returned ++ [.ok none] ↔
    calls.reads = [] ∧ calls.buffer = []

theorem Splitting.eof {lineBuffered : Bool} {stream : Bytes} {calls : Calls}
    (splitting : Splitting lineBuffered stream calls) (ended : .ok none ∈ calls.returned) : calls.left = [] := by
  obtain ⟨n, returned, eof⟩ := splitting.returned
  have some : n ≠ 0 := by
    rintro rfl
    rw [returned] at ended
    simp at ended
  rw [Calls.left, (eof some).1, (eof some).2]
  rfl

theorem Splitting.split {lineBuffered : Bool} {stream : Bytes} {calls : Calls}
    (splitting : Splitting lineBuffered stream calls) : Split lineBuffered stream calls where
  returned := splitting.returned.imp fun n => And.left
  whole := splitting.whole
  nonempty := splitting.nonempty
  terminated lines first payload rest cut more := by
    have pieces := splitting.lines lines
    rw [cut, List.append_assoc, List.cons_append] at pieces
    exact cutAfter_terminated pieces.symm (List.append_ne_nil_of_left_ne_nil more _)
  ended none := by
    have whole := splitting.whole
    rw [splitting.eof none, List.append_nil] at whole
    refine ⟨whole, fun lines => ?_⟩
    have pieces := splitting.lines lines
    rw [splitting.eof none] at pieces
    exact (List.append_nil _).symm.trans pieces
  none_iff := splitting.none_iff

end MinimalVm.Agent
