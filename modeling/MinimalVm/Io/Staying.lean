import MinimalVm.Io.Receive

/-! Receiving from a host that has sent its messages, and disconnects or stays.

A connection whose host disconnects ends, and an open last line ends with it.
As long as the host stays, a read past everything it has sent waits. Either
way a receiver that has been offered all of the messages is answered the same
from then on.
-/

set_option autoImplicit false

namespace MinimalVm.Io

open MinimalVm.Semantics MinimalVm.Protocol MinimalVm.Text

/-! ## A reader whose host stays connected -/

structure OpenReader (parse : Bytes → Except ParseError Message) where
  sent : MsgReader parse

namespace MsgReader

variable {parse : Bytes → Except ParseError Message}

/-- A poll that is answered has not got past the last read of a reader that waits. -/
theorem pollReadMessage_waits {this that : MsgReader parse} {outcome : PollMessage} {sent : List ReadEvent}
    (polled : this.pollReadMessage = (outcome, that)) (waits : this.reader = sent ++ [.pending]) :
    outcome = .pending ∨ ∃ left, that.reader = left ++ [.pending] := by
  fun_induction pollReadMessage this generalizing sent with
  | case1 this found ih => exact ih polled waits
  | case2 this ix positive found =>
    cases polled
    exact .inr ⟨sent, waits⟩
  | case3 reader buffer found =>
    cases polled
    exact .inl rfl
  | case4 error reader buffer found =>
    cases polled
    obtain _ | ⟨event, sent⟩ := sent
    · cases waits
    · cases waits
      exact .inr ⟨sent, rfl⟩
  | case5 chunk reader buffer found ih =>
    obtain _ | ⟨event, sent⟩ := sent
    · cases waits
    · cases waits
      exact ih polled rfl
  | case6 found => simp at waits
  | case7 buffer found nonempty ih => simp at waits

theorem pollReadMessage_line {reader : List ReadEvent} {line : Bytes} (free : newline ∉ line) (nonempty : line ≠ [])
    (rest : Bytes) : (⟨reader, line ++ newline :: rest⟩ : MsgReader parse).pollReadMessage =
      (.ready (((parse line).map some).mapError .parse), ⟨reader, rest⟩) := by
  have found : position newline (line ++ newline :: rest) = some line.length := by
    rw [position, List.findIdx?_append, List.findIdx?_eq_none_iff.mpr fun b member => by
      simpa using fun same : b = newline => free (same ▸ member)]
    simp [List.findIdx?_cons]
  obtain ⟨n, length⟩ := Nat.exists_eq_succ_of_ne_zero (mt List.length_eq_zero_iff.mp nonempty)
  unfold pollReadMessage
  split
  · rename_i zero
    cases (Option.some.inj (found.symm.trans zero)).symm.trans length
  · rename_i ix positive same
    obtain rfl := Option.some.inj (found.symm.trans same)
    simp
  · rename_i none
    cases found.symm.trans none

theorem pollReadMessage_data (chunk : Chunk) (reader : List ReadEvent) :
    (⟨.data chunk :: reader, []⟩ : MsgReader parse).pollReadMessage =
      (⟨reader, chunk.bytes⟩ : MsgReader parse).pollReadMessage := by
  rw [pollReadMessage]
  rfl

end MsgReader

namespace OpenReader

variable {parse : Bytes → Except ParseError Message}

def new (reader : List ReadEvent) : OpenReader parse := ⟨.new reader⟩

/-- A read past all that has been sent waits. -/
def waiting (this : OpenReader parse) : MsgReader parse := ⟨this.sent.reader ++ [.pending], this.sent.buffer⟩

/-- The poll of a reader of bytes, which waits once more every time it has waited. -/
def pollReadMessage (this : OpenReader parse) : PollMessage × OpenReader parse :=
  let polled := this.waiting.pollReadMessage
  (polled.1, ⟨⟨polled.2.reader.dropLast, polled.2.buffer⟩⟩)

theorem pollReadMessage_line {line : Bytes} (free : newline ∉ line) (nonempty : line ≠ []) (rest : Bytes) :
    (⟨⟨[], line ++ newline :: rest⟩⟩ : OpenReader parse).pollReadMessage =
      (.ready (((parse line).map some).mapError .parse), ⟨⟨[], rest⟩⟩) := by
  simp only [pollReadMessage, waiting, MsgReader.pollReadMessage_line free nonempty]
  rfl

theorem pollReadMessage_data (chunk : Chunk) :
    (⟨⟨[.data chunk], []⟩⟩ : OpenReader parse).pollReadMessage =
      (⟨⟨[], chunk.bytes⟩⟩ : OpenReader parse).pollReadMessage := by
  simp only [pollReadMessage, waiting, List.nil_append, List.cons_append, MsgReader.pollReadMessage_data]

theorem pollReadMessage_end : (⟨⟨[], []⟩⟩ : OpenReader parse).pollReadMessage = (.pending, ⟨⟨[], []⟩⟩) := by
  unfold pollReadMessage waiting MsgReader.pollReadMessage
  rfl

theorem pollReadMessage_progress {this that : OpenReader parse} {msg : Message}
    (polled : this.pollReadMessage = (.ready (.ok (some msg)), that)) :
    that.waiting.toConnection.events.length < this.waiting.toConnection.events.length := by
  obtain ⟨outcome, left⟩ := Prod.mk.inj polled
  generalize inner : this.waiting.pollReadMessage = result at outcome left
  obtain ⟨_, reader⟩ := result
  cases outcome
  have progress := MessageReader.progress (show MessageReader.pollReadMessage this.waiting = _ from inner)
  rcases MsgReader.pollReadMessage_waits inner rfl with impossible | ⟨rest, waits⟩
  · cases impossible
  · have same : that.waiting = reader := by
      obtain ⟨events, buffer⟩ := reader
      cases waits
      rw [← left]
      simp [waiting]
    exact same ▸ progress

instance : MessageReader (OpenReader parse) where
  pollReadMessage := pollReadMessage
  unread this := this.waiting.toConnection.events.length
  progress := pollReadMessage_progress

end OpenReader

/-! ## Receiving all that has been sent -/

/-- The answer once everything has been received, by whether the host disconnects. -/
def afterAll {A : Type} (disconnects : Bool) : Poll (Except RecvError (Option A)) :=
  if disconnects then .ready (.ok none) else .pending

section
variable {ρ : Type} [MessageReader ρ]

/-- A reader that reports some messages and has the same answer from then on. -/
inductive Delivers (disconnects : Bool) : ρ → List Message → Prop
  | all {r : ρ} : MessageReader.pollReadMessage r = (afterAll disconnects, r) → Delivers disconnects r []
  | message {r r' : ρ} {msg : Message} {msgs : List Message} :
      MessageReader.pollReadMessage r = (.ready (.ok (some msg)), r') → Delivers disconnects r' msgs →
      Delivers disconnects r (msg :: msgs)

variable {M : Type} [FromMessage M] {disconnects : Bool}

theorem Delivers.of_polls {r r' : ρ} {msgs : List Message} (delivers : Delivers disconnects r' msgs)
    (same : MessageReader.pollReadMessage r = MessageReader.pollReadMessage r') (nonempty : msgs ≠ []) :
    Delivers disconnects r msgs := by
  cases delivers with
  | all polled => exact absurd rfl nonempty
  | message polled delivers => exact .message (same.trans polled) delivers

/-- What a receive can come to if it may be offered some messages in all. -/
inductive Offered (M : Type) [FromMessage M] (disconnects : Bool) (msgs : List Message) :
    PollRecv M × RxLocal ρ → Prop
  | took {m : M} {rx : RxLocal ρ} {left : List Message} : Delivers disconnects rx.reader left →
      rx.msgs.queue.length + left.length < msgs.length →
      Offered M disconnects msgs (.ready (.ok (some m)), rx)
  | nothing {rx : RxLocal ρ} : Refused M msgs → Delivers disconnects rx.reader [] →
      rx.pollRecv M = (afterAll disconnects, rx) → Offered M disconnects msgs (afterAll disconnects, rx)

theorem RxLocal.readOn_all (rx : RxLocal ρ)
    (all : MessageReader.pollReadMessage rx.reader = (afterAll disconnects, rx.reader)) :
    rx.readOn M = (afterAll disconnects, rx) := by
  rw [RxLocal.readOn_eq, all]
  cases disconnects <;> rfl

variable [LawfulFromMessage M]

theorem RxLocal.readOn_offered {queue msgs : List Message} {r : ρ} (delivers : Delivers disconnects r msgs)
    (skipped : Refused M queue) :
    Offered M disconnects (queue ++ msgs) ((⟨r, ⟨queue⟩⟩ : RxLocal ρ).readOn M) := by
  induction delivers generalizing queue with
  | @all r all =>
    rw [readOn_all _ all, List.append_nil]
    refine .nothing skipped (.all all) ?_
    have popped := MsgBuffer.pop_popped (M := M) ⟨queue⟩
    unfold pollRecv
    generalize MsgBuffer.pop M ⟨queue⟩ = result at popped
    cases popped with
    | absent _ => exact readOn_all _ all
    | found _ converted =>
      have refused := (refused_append.mp skipped).2 _ List.mem_cons_self
      cases refused.symm.trans (accepts_of_ok converted)
  | @message r r' msg msgs polled delivers ih =>
    rw [readOn_eq, polled]
    dsimp only
    cases converted : fromMessage (M := M) msg with
    | ok m =>
      refine .took delivers ?_
      simp only [List.length_append, List.length_cons]
      omega
    | error back =>
      cases LawfulFromMessage.gives_back msg back converted
      have refused := refused_singleton.mpr (refused_of_error converted)
      rw [List.append_cons]
      exact ih (refused_append.mpr ⟨skipped, refused⟩)

theorem RxLocal.pollRecv_offered {rx : RxLocal ρ} {msgs : List Message} (delivers : Delivers disconnects rx.reader msgs) :
    Offered M disconnects (rx.msgs.queue ++ msgs) (rx.pollRecv M) := by
  obtain ⟨reader, buffer⟩ := rx
  have popped := buffer.pop_popped (M := M)
  unfold pollRecv
  generalize buffer.pop M = result at popped
  cases popped with
  | absent skipped => exact readOn_offered delivers skipped
  | found _ converted =>
    refine .took delivers ?_
    simp only [List.length_append, List.length_cons]
    omega

end

end MinimalVm.Io
