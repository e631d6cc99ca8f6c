import MinimalVm.Io.LineParser
import MinimalVm.Io.Receive
import MinimalVm.Semantics.Execution
import MinimalVm.Semantics.Ledger

/-! Receivers of many types on clones of one receiving end.

Whatever types the calls choose and in whatever order they come, the calls
together account for the stream: each answer names the item it returned, the
item is the earliest one the call could have, and the items returned, queued
and unread partition the stream.
-/

set_option autoImplicit false

namespace MinimalVm.Io

open MinimalVm.Semantics MinimalVm.Protocol MinimalVm.Text

structure Answer where
  receiver : Receiver
  outcome : PollRecv receiver.Carrier

/-- Clones of one `Rx`. A `Recv` future holds a clone and the type it asks for,
so dropping it changes nothing else. -/
structure Receivers (parse : Bytes → Except ParseError Message) where
  rx : RxLocal (MsgReader parse)
  futures : List (Option Receiver)
  answers : List Answer

inductive ReceiveStep where
  | recv (receiver : Receiver)
  | poll (future : Nat)
  | drop (future : Nat)
  | pollRecv (receiver : Receiver)

namespace Receivers

variable {parse : Bytes → Except ParseError Message}

def new (reader : List ReadEvent) : Receivers parse := ⟨.new (.new reader), [], []⟩

def call (this : Receivers parse) (receiver : Receiver) : Receivers parse :=
  let polled := this.rx.pollRecv receiver.Carrier
  { this with rx := polled.2, answers := this.answers ++ [⟨receiver, polled.1⟩] }

def step (this : Receivers parse) : ReceiveStep → Option (Receivers parse)
  | .recv receiver => some { this with futures := this.futures ++ [some receiver] }
  | .poll future =>
    match this.futures[future]? with
    | some (some receiver) =>
      let next := this.call receiver
      let finished := (this.rx.pollRecv receiver.Carrier).1.isPending = false
      some { next with futures := if finished then next.futures.set future none else next.futures }
    | _ => none
  | .drop future =>
    match this.futures[future]? with
    | some (some _) => some { this with futures := this.futures.set future none }
    | _ => none
  | .pollRecv receiver => some (this.call receiver)

end Receivers

/-- Answers in the order given, each with the position of the item it returned.
A message returned is one the receiver accepts, not returned before, and no
earlier such message is left; the end of the stream is only reported when no
message is left that the receiver accepts. -/
inductive Explains (items : List Item) : List Answer → List Nat → Prop
  | none : Explains items [] []
  | pending {answers : List Answer} {taken : List Nat} {receiver : Receiver} :
      Explains items answers taken → Explains items (answers ++ [⟨receiver, .pending⟩]) taken
  | failed {answers : List Answer} {taken : List Nat} {receiver : Receiver} {error : IoError} :
      Explains items answers taken →
      Explains items (answers ++ [⟨receiver, .ready (.error (.read error))⟩]) taken
  | message {answers : List Answer} {taken : List Nat} {receiver : Receiver} {i : Nat}
      {msg : Message} {m : receiver.Carrier} :
      Explains items answers taken → items[i]? = some (.ok msg) → fromMessage msg = .ok m →
      i ∉ taken →
      (∀ j < i, ∀ earlier, items[j]? = some (.ok earlier) → j ∉ taken →
        Accepts receiver.Carrier earlier = false) →
      Explains items (answers ++ [⟨receiver, .ready (.ok (some m))⟩]) (taken ++ [i])
  | malformed {answers : List Answer} {taken : List Nat} {receiver : Receiver} {i : Nat}
      {cause : ParseError} :
      Explains items answers taken → items[i]? = some (.error cause) → i ∉ taken →
      Explains items (answers ++ [⟨receiver, .ready (.error (.parse cause))⟩]) (taken ++ [i])
  | eof {answers : List Answer} {taken : List Nat} {receiver : Receiver} :
      Explains items answers taken →
      (∀ j msg, items[j]? = some (.ok msg) → j ∉ taken → Accepts receiver.Carrier msg = false) →
      Explains items (answers ++ [⟨receiver, .ready (.ok none)⟩]) taken

/-- The answers are explained by the positions taken, and those positions, the
queue and what is unread partition the stream. -/
structure Accounted {parse : Bytes → Except ParseError Message} (items : List Item)
    (s : Receivers parse) (taken parked : List Nat) : Prop where
  explained : Explains items s.answers taken
  ledger : Ledger items taken parked (s.rx.msgs.queue.map .ok) s.rx.reader.toConnection.items

theorem connection_items_messages (passed : List Message) (rest : List ConnectionEvent) :
    (Connection.mk (messageLines passed ++ rest)).items =
      passed.map .ok ++ (Connection.mk rest).items := by
  induction passed with
  | nil => rfl
  | cons msg passed ih =>
    simp only [Connection.items] at ih
    simp [Connection.items, ConnectionEvent.item?, ih]

theorem refused_waiting {M : Type} [FromMessage M] {queue : List Message} (refused : Refused M queue)
    {msg : Message} (waits : Except.ok msg ∈ queue.map (Except.ok : Message → Item)) :
    Accepts M msg = false := by
  obtain ⟨_, member, same⟩ := List.mem_map.mp waits
  exact refused msg (Except.ok.inj same ▸ member)

theorem Explains.extend {items : List Item} {answers : List Answer} {taken parked : List Nat}
    {receiver : Receiver} {outcome : PollRecv receiver.Carrier} {lines after : RxLocal Connection}
    (explained : Explains items answers taken)
    (ledger : Ledger items taken parked (lines.msgs.queue.map .ok) lines.reader.items)
    (received : Received receiver.Carrier lines (outcome, after)) :
    ∃ taken' parked', Explains items (answers ++ [⟨receiver, outcome⟩]) taken' ∧
      Ledger items taken' parked' (after.msgs.queue.map .ok) after.reader.items := by
  cases received with
  | @queued connection before rest msg m skipped converted =>
    -- What waits before the message is refused, and what is unread comes later.
    rw [List.map_append, List.map_cons] at ledger
    obtain ⟨i, parked', moved, here, free, earlier⟩ := ledger.take_waiting
    rw [← List.map_append] at moved
    exact ⟨taken ++ [i], parked', explained.message here converted free fun j before_i other present open_ =>
      refused_waiting skipped (earlier j before_i _ present open_), moved⟩
  | @read queue passed last rest _ skipped beyond ended =>
    -- Everything that is read past is parked before the poll is answered.
    rw [connection_items_messages] at ledger
    obtain ⟨parked', settled⟩ := Ledger.park_all _ ledger
    rw [← List.map_append] at settled
    have refused : Refused receiver.Carrier (queue ++ passed) := refused_append.mpr ⟨skipped, beyond⟩
    cases ended with
    | pending => exact ⟨taken, parked', explained.pending, settled⟩
    | failed => exact ⟨taken, parked', explained.failed, settled⟩
    | eof =>
      refine ⟨taken, parked', explained.eof fun j msg present open_ => ?_, settled⟩
      rcases settled.not_taken present open_ with ⟨waits, -⟩ | ⟨unread, -⟩
      · exact refused_waiting refused waits
      · cases unread
    | malformed =>
      exact ⟨_, parked', explained.malformed settled.next settled.next_free, settled.take_next⟩
    | message converted =>
      refine ⟨_, parked', explained.message settled.next converted settled.next_free ?_,
        settled.take_next⟩
      intro j before_i other present open_
      rcases settled.not_taken present open_ with ⟨waits, -⟩ | ⟨-, beyond⟩
      · exact refused_waiting refused waits
      · omega

namespace Accounted

variable {parse : Bytes → Except ParseError Message} {items : List Item} {s : Receivers parse}
  {taken parked : List Nat}

theorem call (account : Accounted items s taken parked) (receiver : Receiver) :
    ∃ taken' parked', Accounted items (s.call receiver) taken' parked' := by
  have received := RxLocal.pollRecv_received (M := receiver.Carrier) s.rx.toLines
  rw [RxLocal.pollRecv_toLines] at received
  obtain ⟨taken', parked', explained, ledger⟩ := account.explained.extend account.ledger received
  exact ⟨taken', parked', explained, ledger⟩

theorem step {t : Receivers parse} {label : ReceiveStep} (account : Accounted items s taken parked)
    (moved : s.step label = some t) : ∃ taken' parked', Accounted items t taken' parked' := by
  cases label with
  | recv receiver =>
    cases moved
    exact ⟨taken, parked, account.explained, account.ledger⟩
  | poll future =>
    simp only [Receivers.step] at moved
    split at moved
    · cases moved
      obtain ⟨taken', parked', next⟩ := account.call _
      exact ⟨taken', parked', next.explained, next.ledger⟩
    · cases moved
  | drop future =>
    simp only [Receivers.step] at moved
    split at moved
    · cases moved
      exact ⟨taken, parked, account.explained, account.ledger⟩
    · cases moved
  | pollRecv receiver =>
    cases moved
    exact account.call receiver

theorem start (reader : List ReadEvent) :
    Accounted ((segments newline (streamOf reader)).map parse) (.new reader : Receivers parse) [] [] := by
  have unread := MsgReader.items_toConnection (.new reader : MsgReader parse)
  exact ⟨.none, unread ▸ Ledger.start _⟩

/-- A placeholder is never left behind: the queue holds messages of the stream. -/
theorem queue_of_stream (account : Accounted items s taken parked) {msg : Message}
    (member : msg ∈ s.rx.msgs.queue) : .ok msg ∈ items := by
  have waits : some (.ok msg) ∈ (s.rx.msgs.queue.map Except.ok).map (some : Item → Option Item) :=
    List.mem_map_of_mem (List.mem_map_of_mem member)
  rw [← account.ledger.waits] at waits
  obtain ⟨i, -, present⟩ := List.mem_map.mp waits
  exact List.mem_of_getElem? present

theorem malformed_returned (account : Accounted items s taken parked) {i : Nat} {cause : ParseError}
    (present : items[i]? = some (.error cause)) (read : i < taken.length + parked.length) : i ∈ taken := by
  apply Classical.byContradiction
  intro open_
  rcases account.ledger.not_taken present open_ with ⟨waits, -⟩ | ⟨-, beyond⟩
  · simp at waits
  · omega

end Accounted

/-- Typed receive loses, duplicates and reorders nothing. -/
theorem typed_receive (parse : Bytes → Except ParseError Message) (reader : List ReadEvent)
    (labels : List ReceiveStep) (s : Receivers parse)
    (run : execute Receivers.step (.new reader) labels = some s) :
    let items := (segments newline (streamOf reader)).map parse
    ∃ taken parked, Accounted items s taken parked ∧
      (∀ i cause, items[i]? = some (.error cause) → i < taken.length + parked.length → i ∈ taken) ∧
      (∀ msg ∈ s.rx.msgs.queue, .ok msg ∈ items) := by
  intro items
  have kept : ∃ taken parked, Accounted items s taken parked :=
    invariant_execute (fun s => ∃ taken parked, Accounted items s taken parked)
      (fun _ _ _ ⟨_, _, account⟩ moved => account.step moved) ⟨[], [], .start reader⟩ run
  obtain ⟨taken, parked, account⟩ := kept
  exact ⟨taken, parked, account, fun _ _ => account.malformed_returned, fun _ => account.queue_of_stream⟩

/-- A malformed line, then a message that arrives in two reads: the first
receiver gets the error, the second is dropped while pending. -/
theorem typed_receive_kill :
    let parse := parseWith (knownText [.kill ⟨9⟩])
    let text := Message.text (.kill ⟨9⟩)
    ∃ s : Receivers parse,
      let reader : List ReadEvent := [.data ⟨33 :: newline :: text.take 1, nofun⟩, .pending,
        .data ⟨text.drop 1, by decide +kernel⟩]
      let items := (segments newline (streamOf reader)).map parse
      ∃ taken parked, Accounted items s taken parked ∧
        (∀ i cause, items[i]? = some (.error cause) → i < taken.length + parked.length → i ∈ taken) ∧
        (∀ msg ∈ s.rx.msgs.queue, .ok msg ∈ items) := by
  intro parse text
  let reader : List ReadEvent := [.data ⟨33 :: newline :: text.take 1, nofun⟩, .pending,
    .data ⟨text.drop 1, by decide +kernel⟩]
  let labels : List ReceiveStep :=
    [.recv (.stdin .stdio), .poll 0, .recv .exited, .poll 1, .drop 1, .recv .any, .poll 2]
  have completes : (execute Receivers.step (.new reader : Receivers parse) labels).isSome = true := by
    decide +kernel
  obtain ⟨s, run⟩ := Option.isSome_iff_exists.mp completes
  exact ⟨s, typed_receive parse reader labels s run⟩

end MinimalVm.Io
