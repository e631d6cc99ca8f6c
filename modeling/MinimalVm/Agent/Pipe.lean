import MinimalVm.Semantics.Polling
import MinimalVm.Text.Segments
import MinimalVm.Text.Utf8

/-! The reading end of one of the child's output pipes.

Output is forwarded by lines or as it comes. Bytes read past the last line stay
in a buffer that survives a read which is dropped while pending. After the
descriptor has been closed the pipe is out of reach: a read of the closed
number fails, or is never answered.
-/

set_option autoImplicit false

namespace MinimalVm.Agent

open MinimalVm.Semantics MinimalVm.Text

abbrev PollOutput := Poll (Except IoError (Option Bytes))

def readLine : List ReadEvent → Bytes → PollOutput × List ReadEvent × Bytes
  | reads, buffer =>
    match position newline buffer with
    | some pos => (.ready (.ok (some (buffer.take (pos + 1)))), reads, buffer.drop (pos + 1))
    | none =>
      match reads with
      -- At end of file the last line is complete without a newline.
      | [] => (.ready (.ok (if buffer = [] then none else some buffer)), [], [])
      | .pending :: reads => (.pending, reads, buffer)
      | .failed error :: reads => (.ready (.error error), reads, buffer)
      | .data chunk :: reads => readLine reads (buffer ++ chunk.bytes)

def readChunk : List ReadEvent → Bytes → PollOutput × List ReadEvent × Bytes
  | [], buffer => (.ready (.ok (if buffer = [] then none else some buffer)), [], [])
  | .pending :: reads, buffer => (.pending, reads, buffer)
  | .failed error :: reads, buffer => (.ready (.error error), reads, buffer)
  | .data chunk :: reads, buffer => (.ready (.ok (some (buffer ++ chunk.bytes))), reads, [])

def readLineOrChunk (lineBuffered : Bool) (reads : List ReadEvent) (buffer : Bytes) :
    PollOutput × List ReadEvent × Bytes :=
  if lineBuffered then readLine reads buffer else readChunk reads buffer

structure Pipe where
  reads : List ReadEvent
  closed : Bool
  buffer : Bytes

def badDescriptor : IoError := ⟨"Bad file descriptor (os error 9)"⟩

namespace Pipe

def new (reads : List ReadEvent) : Pipe := ⟨reads, false, []⟩

/-- One poll of a read. Whether a read of the closed number is answered is for
the system to choose. -/
def pollRead (this : Pipe) (lineBuffered answered : Bool) : PollOutput × Pipe :=
  if this.closed then
    -- What the pipe would still deliver is out of reach, but for the buffer.
    let stale := if answered then [.failed badDescriptor] else [.pending]
    let polled := readLineOrChunk lineBuffered stale this.buffer
    (polled.1, { this with buffer := polled.2.2 })
  else
    let polled := readLineOrChunk lineBuffered this.reads this.buffer
    (polled.1, { this with reads := polled.2.1, buffer := polled.2.2 })

def close (this : Pipe) : Except String Pipe :=
  if this.closed then .error "EBADF" else .ok { this with closed := true }

@[simp] theorem pollRead_closed (this : Pipe) (lineBuffered answered : Bool) :
    (this.pollRead lineBuffered answered).2.closed = this.closed := by
  unfold pollRead
  split <;> rfl

theorem readLine_no_eof {event : ReadEvent} {buffer : Bytes} (empty : ∀ chunk, event ≠ .data chunk) :
    (readLine [event] buffer).1 ≠ .ready (.ok none) := by
  unfold readLine
  split
  · nofun
  · cases event with
    | pending => nofun
    | failed error => nofun
    | data chunk => exact absurd rfl (empty chunk)

theorem pollRead_no_eof {this : Pipe} (closed : this.closed = true) (lineBuffered answered : Bool) :
    (this.pollRead lineBuffered answered).1 ≠ .ready (.ok none) := by
  unfold pollRead readLineOrChunk
  rw [if_pos closed]
  cases answered with
  | true =>
    cases lineBuffered with
    | true => exact readLine_no_eof nofun
    | false => nofun
  | false =>
    cases lineBuffered with
    | true => exact readLine_no_eof nofun
    | false => nofun

end Pipe
end MinimalVm.Agent
