import MinimalVm.Io.LineParser
import MinimalVm.Io.Wire
import MinimalVm.Json.Nesting

/-! From the messages sent to the messages read, over a connection that may be
cut at any byte.

An encoded message is one line, and no part of it is the encoding of anything.
A reader therefore delivers the messages whose text has arrived whole, and
reports the one that was cut as malformed.
-/

set_option autoImplicit false

namespace MinimalVm.Io

open MinimalVm.Semantics MinimalVm.Protocol MinimalVm.Text MinimalVm.Json

/-! ## Polling to the end -/

def pollTimes {ρ : Type} [MessageReader ρ] : Nat → ρ → List PollMessage × ρ
  | 0, r => ([], r)
  | n + 1, r =>
    let first := MessageReader.pollReadMessage r
    let rest := pollTimes n first.2
    (first.1 :: rest.1, rest.2)

/-- What the poll that reaches an event returns. -/
def ConnectionEvent.outcome : ConnectionEvent → PollMessage
  | .pending => .pending
  | .failed error => .ready (.error (.read error))
  | .line item => .ready ((item.map some).mapError .parse)

theorem pollTimes_eof (n : Nat) :
    pollTimes n (⟨[]⟩ : Connection) = (List.replicate n (.ready (.ok none)), ⟨[]⟩) := by
  induction n with
  | zero => rfl
  | succ n ih =>
    have polled : MessageReader.pollReadMessage (⟨[]⟩ : Connection) = (.ready (.ok none), ⟨[]⟩) := rfl
    simp only [pollTimes, polled, ih, List.replicate_succ]

theorem pollTimes_connection (events : List ConnectionEvent) (n : Nat) :
    pollTimes (events.length + n) (⟨events⟩ : Connection) =
      (events.map ConnectionEvent.outcome ++ List.replicate n (.ready (.ok none)), ⟨[]⟩) := by
  induction events with
  | nil => simp [pollTimes_eof]
  | cons event events ih =>
    have polled : MessageReader.pollReadMessage (⟨event :: events⟩ : Connection) =
        (event.outcome, ⟨events⟩) := by cases event <;> rfl
    rw [List.length_cons, Nat.add_right_comm]
    simp only [pollTimes, polled, ih, List.map_cons, List.cons_append]

theorem pollTimes_snoc {ρ : Type} [MessageReader ρ] (n : Nat) (r : ρ) :
    pollTimes (n + 1) r =
      ((pollTimes n r).1 ++ [(MessageReader.pollReadMessage (pollTimes n r).2).1],
        (MessageReader.pollReadMessage (pollTimes n r).2).2) := by
  induction n generalizing r with
  | zero => rfl
  | succ n ih =>
    rw [pollTimes, ih]
    rfl

def answer (item : Item) : Except RecvError (Option Message) := (item.map some).mapError .parse

theorem answer_ne_none (item : Item) : answer item ≠ .ok none := by
  intro same
  cases item with
  | ok msg => cases same
  | error cause => cases same

section
variable {parse : Bytes → Except ParseError Message}

theorem pollTimes_toConnection (n : Nat) (this : MsgReader parse) :
    pollTimes n this.toConnection = ((pollTimes n this).1, (pollTimes n this).2.toConnection) := by
  induction n generalizing this with
  | zero => rfl
  | succ n ih =>
    have polled : MessageReader.pollReadMessage this.toConnection =
        (this.pollReadMessage.1, this.pollReadMessage.2.toConnection) := MsgReader.toConnection_polled rfl
    simp only [pollTimes, polled, ih]
    rfl

theorem MsgReader.eof_empty {this : MsgReader parse} (ended : this.pollReadMessage.1 = .ready (.ok none)) :
    this.pollReadMessage.2.buffer = [] := by
  fun_induction pollReadMessage this with
  | case1 this found ih => exact ih ended
  | case2 this ix positive found msg => exact absurd (Poll.ready.inj ended) (answer_ne_none msg)
  | case3 reader buffer found => cases ended
  | case4 error reader buffer found => cases ended
  | case5 chunk reader buffer found ih => exact ih ended
  | case6 found => rfl
  | case7 buffer found nonempty ih => exact ih ended

theorem pollTimes_buffer (this : MsgReader parse) (n : Nat) :
    (pollTimes (this.toConnection.events.length + n + 1) this).2.buffer = [] := by
  rw [pollTimes_snoc]
  apply MsgReader.eof_empty
  have drained := pollTimes_connection this.toConnection.events n
  rw [show (⟨this.toConnection.events⟩ : Connection) = this.toConnection from rfl,
    pollTimes_toConnection] at drained
  have empty := (Prod.mk.inj drained).2
  rw [(MsgReader.pollReadMessage_refines _).1, empty]
  rfl

theorem linesOf_steady {reader : List ReadEvent} (reads : ∀ error, .failed error ∉ reader)
    (buffer : Bytes) {error : IoError} : .failed error ∉ linesOf parse reader buffer := by
  have lines (ws : List Bytes) : .failed error ∉ ws.map (ConnectionEvent.line ∘ parse) := by simp
  induction reader generalizing buffer with
  | nil => exact lines _
  | cons event reader ih =>
    have rest (error : IoError) : .failed error ∉ reader := fun member =>
      reads error (List.mem_cons_of_mem event member)
    cases event with
    | data chunk => exact ih rest _
    | pending =>
      simp only [linesOf, List.mem_append, List.mem_cons, not_or]
      exact ⟨lines _, fun same => ConnectionEvent.noConfusion same, ih rest _⟩
    | failed other => exact absurd List.mem_cons_self (reads other)

theorem outcomes_steady {events : List ConnectionEvent} (steady : ∀ error, .failed error ∉ events) :
    (events.map ConnectionEvent.outcome).filterMap Poll.value? =
      (Connection.mk events).items.map answer := by
  induction events with
  | nil => rfl
  | cons event events ih =>
    have rest := ih fun error member => steady error (List.mem_cons_of_mem event member)
    simp only [Connection.items] at rest
    cases event with
    | pending => exact rest
    | failed error => exact absurd List.mem_cons_self (steady error)
    | line item => exact congrArg (answer item :: ·) rest

theorem pollTimes_answers (this : MsgReader parse) (reads : ∀ error, .failed error ∉ this.reader) (n : Nat) :
    (pollTimes (this.toConnection.events.length + n) this).1.filterMap Poll.value? =
      this.toConnection.items.map answer ++ List.replicate n (.ok none) := by
  have polled := pollTimes_connection this.toConnection.events n
  rw [show (⟨this.toConnection.events⟩ : Connection) = this.toConnection from rfl,
    pollTimes_toConnection] at polled
  have ended : (List.replicate n (.ready (.ok none) : PollMessage)).filterMap Poll.value? =
      List.replicate n (.ok none) := List.filterMap_replicate_of_some rfl
  have steady : ∀ error, .failed error ∉ this.toConnection.events := fun _ => linesOf_steady reads this.buffer
  rw [(Prod.mk.inj polled).1, List.filterMap_append, ended, outcomes_steady steady]

end

/-! ## What arrives of a sequence of texts -/

section
variable {α : Type} (text : α → Bytes)

/-- Those whose text lies wholly within the first `n` bytes of their frames. -/
def within : List α → Nat → List α
  | [], _ => []
  | a :: as, n =>
    if (text a).length ≤ n then a :: within as (n - (text a).length - 1) else []

/-- Whether the first `n` bytes of the frames end strictly inside a text. -/
def endsInside : List α → Nat → Bool
  | [], _ => false
  | a :: as, n =>
    if (text a).length ≤ n then endsInside as (n - (text a).length - 1) else 0 < n

/-- A text that is begun but not finished. -/
def Part (as : List α) (part : Bytes) : Prop := ∃ a ∈ as, part <+: text a ∧ part ≠ [] ∧ part ≠ text a

/-- What is left of a connection that was cut: nothing, or a part of a text. -/
inductive Leftover (as : List α) : Bool → List Bytes → Prop
  | none : Leftover as false []
  | part {part : Bytes} : Part text as part → Leftover as true [part]

variable {text}

theorem Leftover.cons {as : List α} {inside : Bool} {rest : List Bytes} (a : α)
    (leftover : Leftover text as inside rest) : Leftover text (a :: as) inside rest := by
  cases leftover with
  | none => exact .none
  | part cut =>
    obtain ⟨b, member, shape⟩ := cut
    exact .part ⟨b, List.mem_cons_of_mem a member, shape⟩

theorem within_subset {as : List α} {n : Nat} {a : α} (member : a ∈ within text as n) : a ∈ as := by
  induction as generalizing n with
  | nil => exact member
  | cons b as ih =>
    rw [within] at member
    split at member
    · rcases List.mem_cons.mp member with rfl | later
      · exact List.mem_cons_self
      · exact List.mem_cons_of_mem b (ih later)
    · cases member

theorem framesOf_cons_length (a : α) (as : List α) :
    (framesOf ((a :: as).map text)).length = (text a).length + 1 + (framesOf (as.map text)).length := by
  rw [List.map_cons, framesOf, List.flatMap_cons, List.length_append, frame, List.length_append]
  rfl

theorem within_map {β : Type} (f : β → α) (bs : List β) (n : Nat) :
    within text (bs.map f) n = (within (text ∘ f) bs n).map f := by
  induction bs generalizing n with
  | nil => rfl
  | cons b bs ih =>
    rw [List.map_cons, within, within, ih]
    dsimp only [Function.comp_apply]
    split <;> rfl

theorem endsInside_map {β : Type} (f : β → α) (bs : List β) (n : Nat) :
    endsInside text (bs.map f) n = endsInside (text ∘ f) bs n := by
  induction bs generalizing n with
  | nil => rfl
  | cons b bs ih =>
    rw [List.map_cons, endsInside, endsInside, ih]
    rfl

theorem within_starts (as : List α) (n : Nat) : within text as n <+: as := by
  induction as generalizing n with
  | nil => exact List.prefix_rfl
  | cons a as ih =>
    rw [within]
    split
    · exact List.cons_prefix_cons.mpr ⟨rfl, ih _⟩
    · exact List.nil_prefix

theorem prefix_within {as bs : List α} {n : Nat} (arrived : (framesOf (as.map text)).length ≤ n) :
    as <+: within text (as ++ bs) n := by
  induction as generalizing n with
  | nil => exact List.nil_prefix
  | cons a as ih =>
    rw [framesOf_cons_length] at arrived
    rw [List.cons_append, within, if_pos (by omega)]
    exact List.cons_prefix_cons.mpr ⟨rfl, ih (by omega)⟩

theorem within_all {as : List α} : within text as (framesOf (as.map text)).length = as := by
  have all : as <+: within text (as ++ []) (framesOf (as.map text)).length := prefix_within (Nat.le_refl _)
  rw [List.append_nil] at all
  exact (within_starts as _).eq_of_length_le all.length_le

theorem endsInside_all {as : List α} : endsInside text as (framesOf (as.map text)).length = false := by
  induction as with
  | nil => rfl
  | cons a as ih =>
    rw [framesOf_cons_length, endsInside, if_pos (by omega)]
    have left : (text a).length + 1 + (framesOf (as.map text)).length - (text a).length - 1 =
        (framesOf (as.map text)).length := by omega
    rw [left]
    exact ih

theorem segments_take_line {w t : Bytes} (free : newline ∉ w) (nonempty : w ≠ []) (n : Nat)
    (whole : w.length ≤ n) :
    segments newline ((w ++ newline :: t).take n) = w :: segments newline (t.take (n - w.length - 1)) := by
  rw [List.take_append, List.take_of_length_le whole]
  cases left : n - w.length with
  | zero => simp [segments_free free nonempty]
  | succ k => rw [List.take_succ_cons, segments_line free, if_neg nonempty]; rfl

/-- The lines of the first `n` bytes are the texts wholly within them and, if
they end inside a text, its part. -/
theorem segments_take {as : List α} (lines : ∀ a ∈ as, newline ∉ text a ∧ text a ≠ []) (n : Nat) :
    ∃ rest, Leftover text as (endsInside text as n) rest ∧
      segments newline ((framesOf (as.map text)).take n) = (within text as n).map text ++ rest := by
  induction as generalizing n with
  | nil => exact ⟨[], .none, by simp [framesOf, within]⟩
  | cons a as ih =>
    obtain ⟨free, nonempty⟩ := lines a List.mem_cons_self
    have frames : framesOf ((a :: as).map text) = text a ++ newline :: framesOf (as.map text) := by
      simp [framesOf, frame]
    rw [frames]
    by_cases arrived : (text a).length ≤ n
    · obtain ⟨rest, leftover, later⟩ := ih (fun b member => lines b (List.mem_cons_of_mem a member))
        (n - (text a).length - 1)
      refine ⟨rest, ?_, ?_⟩
      · rw [endsInside, if_pos arrived]
        exact leftover.cons a
      · rw [segments_take_line free nonempty n arrived, later, within, if_pos arrived]
        rfl
    · -- The cut lies in the first text, so nothing after it has arrived.
      rw [within, if_neg arrived, endsInside, if_neg arrived, List.take_append_of_le_length (by omega)]
      rcases Nat.eq_zero_or_pos n with rfl | positive
      · exact ⟨[], .none, rfl⟩
      · have some : (text a).take n ≠ [] := by simp [nonempty]; omega
        have short : (text a).take n ≠ text a := fun same => by
          have := congrArg List.length same
          simp only [List.length_take] at this
          omega
        have freePart : newline ∉ (text a).take n := fun member => free (List.mem_of_mem_take member)
        refine ⟨[(text a).take n], ?_, by rw [segments_free freePart some]; rfl⟩
        rw [decide_eq_true positive]
        exact .part ⟨a, List.mem_cons_self, List.take_prefix n (text a), some, short⟩

end

/-! ## The round trip -/

theorem compact_line {m : Message} {line : Bytes} (written : CompactText m.encode line) :
    newline ∉ line ∧ line ≠ [] := by
  obtain ⟨entries, object⟩ := m.encode_obj
  refine ⟨newline_compact written, ?_⟩
  rw [object] at written
  exact object_nonempty written

theorem compact_part {m : Message} {line part : Bytes} (written : CompactText m.encode line)
    (isPrefix : part <+: line) (nonempty : part ≠ []) (strict : part ≠ line) : ¬ JsonText part := by
  obtain ⟨entries, object⟩ := m.encode_obj
  rw [object] at written
  exact not_text_of_cut_compact written isPrefix nonempty strict

def wire (toVec : Json → Bytes) (ms : List Message) : Bytes := framesOf (ms.map fun m => toVec m.encode)

/-- A request that was answered has emitted just these bytes. -/
theorem wire_of_answered {σ : Type} {w : AsyncWrite σ} {test : Bool} {toVec : Json → Bytes}
    {debug : Message → String} (request : SendRequest) (tx : Tx (Recorded σ))
    (answered : ((request.future (fun m => .ok (toVec m.encode)) debug).poll w.recording test tx).1 =
      .answered (.ready (.ok ()))) :
    ((request.future (fun m => .ok (toVec m.encode)) debug).poll w.recording test tx).2.1.emitted =
      tx.emitted ++ wire toVec request.msgs := by
  have start := Contributes.request (fun m => .ok (toVec m.encode)) debug request
  obtain ⟨taken, -, emitted, after⟩ := start.poll w test tx
  have whole := after.finished (by rw [answered]; simp)
  have same : (request.msgs.map fun m => toVec m.encode) = [] ++ taken := by
    refine (List.map_inj_right (fun _ _ => Except.ok.inj)).mp (Eq.trans ?_ whole)
    rw [List.map_map]
    rfl
  rw [emitted, wire, same, List.nil_append]

/-- Over a connection cut at any byte, split into any reads, the messages whose
text arrived whole are read in order, then the one that was cut is an error,
then the file has ended. -/
theorem round_trip (toVec : Json → Bytes) (fromSlice : Bytes → Except ParseError Json) (ms : List Message)
    (compact : ∀ m ∈ ms, CompactText m.encode (toVec m.encode))
    (oneText : ∀ line v, fromSlice line = .ok v → JsonText line)
    (inverse : ∀ m ∈ ms, fromSlice (toVec m.encode) = .ok m.encode)
    (reader : List ReadEvent) (reads : ∀ error, .failed error ∉ reader)
    (cut : streamOf reader <+: wire toVec ms) :
    let text (m : Message) := toVec m.encode
    let received := streamOf reader
    ∃ cause N, ∀ n,
      let polled := pollTimes (N + n) (.new reader : MsgReader (parseWith fromSlice))
      polled.1.filterMap Poll.value? =
        (within text ms received.length).map (.ok ∘ some) ++
          (if endsInside text ms received.length then [.error (.parse cause)] else []) ++
          List.replicate (n + 1) (.ok none) ∧
      polled.2.buffer = [] := by
  intro text received
  let this : MsgReader (parseWith fromSlice) := .new reader
  have lines : ∀ m ∈ ms, newline ∉ text m ∧ text m ≠ [] := fun m member => compact_line (compact m member)
  have arrived : (framesOf (ms.map text)).take received.length = received :=
    (List.prefix_iff_eq_take.mp cut).symm
  obtain ⟨rest, leftover, segmented⟩ := segments_take lines received.length
  rw [arrived] at segmented
  have whole : ((within text ms received.length).map text).map (parseWith fromSlice) =
      (within text ms received.length).map .ok := by
    rw [List.map_map]
    exact List.map_congr_left fun m member => parseWith_text (inverse m (within_subset member))
  have items : this.toConnection.items =
      (within text ms received.length).map .ok ++ rest.map (parseWith fromSlice) := by
    rw [MsgReader.items_toConnection, ← whole, ← List.map_append, ← segmented]
    rfl
  -- No part of the text of a message is itself a text, so its line is refused.
  have ends : ∃ cause, (rest.map (parseWith fromSlice)).map answer =
      if endsInside text ms received.length then [.error (.parse cause)] else [] := by
    generalize endsInside text ms received.length = inside at leftover
    cases leftover with
    | none => exact ⟨⟨""⟩, rfl⟩
    | part cut =>
      obtain ⟨m, member, isPrefix, nonempty, strict⟩ := cut
      obtain ⟨cause, failed⟩ :=
        parseWith_part oneText (compact_part (compact m member) isPrefix nonempty strict)
      exact ⟨cause, by simp only [List.map_cons, List.map_nil, failed]; rfl⟩
  obtain ⟨cause, ends⟩ := ends
  refine ⟨cause, this.toConnection.events.length + 1, fun n => ⟨?_, ?_⟩⟩
  · rw [Nat.add_right_comm, Nat.add_assoc, pollTimes_answers this reads, items, List.map_append, ends,
      List.map_map]
    rfl
  · rw [Nat.add_right_comm]
    exact pollTimes_buffer this n

/-- A message, then another that is cut after its third byte. -/
def cutReader : List ReadEvent :=
  [.data ⟨frame (Message.text (.kill ⟨9⟩)), frame_nonempty _⟩, .pending,
    .data ⟨(Message.text (.stdin .closed)).take 3, by decide +kernel⟩]

theorem round_trip_kill :
    ∃ cause N, ∀ n,
      let polled := pollTimes (N + n)
        (.new cutReader : MsgReader (parseWith (knownText [.kill ⟨9⟩, .stdin .closed])))
      polled.1.filterMap Poll.value? =
        [.ok (some (.kill ⟨9⟩)), .error (.parse cause)] ++ List.replicate (n + 1) (.ok none) ∧
      polled.2.buffer = [] := by
  let ms : List Message := [.kill ⟨9⟩, .stdin .closed]
  let toVec : Json → Bytes := print fun _ => [48]
  have known : ∀ m ∈ ms, (ms.find? fun other => other.text = m.text) = some m := by decide +kernel
  have arrived : within (fun m => toVec m.encode) ms (streamOf cutReader).length = [.kill ⟨9⟩] := by
    decide +kernel
  have inside : endsInside (fun m => toVec m.encode) ms (streamOf cutReader).length = true := by
    decide +kernel
  obtain ⟨cause, N, polls⟩ := round_trip toVec (knownText ms) ms (fun m _ => m.text_compact)
    (fun _ _ => knownText_jsonText) (fun m member => knownText_text (known m member)) cutReader
    (by simp [cutReader]) (by decide +kernel)
  refine ⟨cause, N, fun n => ?_⟩
  have polled := polls n
  rw [arrived, inside] at polled
  exact polled

end MinimalVm.Io
