import MinimalVm.Io.Send
import MinimalVm.Io.TypedReceive

/-! Receiving ends that take over from each other.

A receiving end that is closed gives back the bytes that it read past the last
line and the messages that nobody asked for. Another one is opened over the
connection, with those bytes before what is still to come. However often that is
done, nothing of the stream is lost, told twice or told in another order.
-/

set_option autoImplicit false

namespace MinimalVm.Io

open MinimalVm.Semantics MinimalVm.Protocol MinimalVm.Text

/-! ## Closing and opening -/

def handOn (bytes : Bytes) (reader : List ReadEvent) : List ReadEvent :=
  if empty : bytes = [] then reader else .data ⟨bytes, empty⟩ :: reader

theorem streamOf_handOn (bytes : Bytes) (reader : List ReadEvent) :
    streamOf (handOn bytes reader) = bytes ++ streamOf reader := by
  unfold handOn
  split
  · rename_i empty
    rw [empty, List.nil_append]
  · rfl

/-- What a receiving end answered until it was closed, and what it gave back. -/
structure Shift where
  answers : List Answer
  bytes : Bytes
  skipped : List Message

structure Relay (parse : Bytes → Except ParseError Message) where
  shifts : List Shift
  current : Receivers parse

inductive RelayStep where
  | receive (step : ReceiveStep)
  | close

namespace Relay

variable {parse : Bytes → Except ParseError Message}

def new (reader : List ReadEvent) : Relay parse := ⟨[], .new reader⟩

def step (this : Relay parse) : RelayStep → Option (Relay parse)
  | .receive step => (this.current.step step).map fun current => { this with current }
  | .close =>
    let ((bytes, skipped), rx) := this.current.rx.close
    some ⟨this.shifts ++ [⟨this.current.answers, bytes, skipped⟩], .new (handOn bytes rx.reader.reader)⟩

def skipped (this : Relay parse) : List Message := this.shifts.flatMap Shift.skipped

end Relay

/-! ## The end of the connection -/

def ToldEnd (answers : List Answer) : Prop := ∃ receiver, ⟨receiver, .ready (.ok none)⟩ ∈ answers

section
variable {parse : Bytes → Except ParseError Message} {M : Type} [FromMessage M]

theorem MsgReader.pollReadMessage_told {this that : MsgReader parse}
    (polled : this.pollReadMessage = (.ready (.ok none), that)) : that = ⟨[], []⟩ := by
  fun_induction pollReadMessage this with
  | case1 this found ih => exact ih polled
  | case2 this ix positive found msg =>
    have same : (msg.map some).mapError RecvError.parse = .ok none := Poll.ready.inj (congrArg Prod.fst polled)
    cases parsed : msg with
    | error cause => rw [parsed] at same; cases same
    | ok other => rw [parsed] at same; cases same
  | case3 reader buffer found => cases polled
  | case4 error reader buffer found => cases polled
  | case5 chunk reader buffer found ih => exact ih polled
  | case6 found =>
    cases polled
    rfl
  | case7 buffer found nonempty ih => exact ih polled

namespace RxLocal

theorem readOn_told (this : RxLocal (MsgReader parse)) (told : (readOn M this).1 = .ready (.ok none)) :
    (readOn M this).2.reader = ⟨[], []⟩ := by
  fun_induction readOn M this with
  | case1 this reader polled => cases told
  | case2 this error reader polled => cases told
  | case3 this reader polled => exact MsgReader.pollReadMessage_told polled
  | case4 this msg reader polled m converted => cases told
  | case5 this msg reader polled back converted ih => exact ih told

theorem pollRecv_told (this : RxLocal (MsgReader parse)) (told : (this.pollRecv M).1 = .ready (.ok none)) :
    (this.pollRecv M).2.reader = ⟨[], []⟩ := by
  unfold pollRecv at told ⊢
  split at told
  · cases told
  · exact readOn_told _ told

theorem pollRecv_ended (this : RxLocal (MsgReader parse)) (ended : this.reader = ⟨[], []⟩) :
    (this.pollRecv M).2.reader = ⟨[], []⟩ := by
  have polled : MessageReader.pollReadMessage this.reader = (.ready (.ok none), (⟨[], []⟩ : MsgReader parse)) := by
    rw [ended]
    exact MsgReader.pollReadMessage_end
  unfold pollRecv
  split
  · exact ended
  · rw [readOn_eq]
    simp only [polled]

end RxLocal

def EndsClean (s : Receivers parse) : Prop := ToldEnd s.answers → s.rx.reader = ⟨[], []⟩

theorem EndsClean.new (reader : List ReadEvent) : EndsClean (.new reader : Receivers parse) :=
  fun ⟨_, member⟩ => (List.not_mem_nil member).elim

theorem EndsClean.call {s : Receivers parse} (clean : EndsClean s) (receiver : Receiver) :
    EndsClean (s.call receiver) := by
  rintro ⟨other, member⟩
  rcases List.mem_append.mp member with earlier | now
  · exact s.rx.pollRecv_ended (clean ⟨other, earlier⟩)
  · obtain ⟨rfl, same⟩ := Answer.mk.inj (List.mem_singleton.mp now)
    exact s.rx.pollRecv_told (eq_of_heq same).symm

theorem EndsClean.step {s t : Receivers parse} {label : ReceiveStep} (clean : EndsClean s)
    (moved : s.step label = some t) : EndsClean t := by
  cases label with
  | recv receiver =>
    cases moved
    exact clean
  | poll future =>
    simp only [Receivers.step] at moved
    split at moved
    · cases moved
      exact clean.call _
    · cases moved
  | drop future =>
    simp only [Receivers.step] at moved
    split at moved
    · cases moved
      exact clean
    · cases moved
  | pollRecv receiver =>
    cases moved
    exact clean.call receiver

end

/-! ## The account of all shifts -/

/-- Each shift accounts for what the ones before it have left over. If it told
somebody that the connection has ended it gave back no bytes, and left nothing. -/
inductive Accounts (items : List Item) : List Shift → List Item → Prop
  | opening : Accounts items [] items
  | shift {shifts : List Shift} {shift : Shift} {left rest : List Item} {taken parked : List Nat} :
      Accounts items shifts left → Explains left shift.answers taken →
      Ledger left taken parked (shift.skipped.map .ok) rest →
      (ToldEnd shift.answers → shift.bytes = [] ∧ rest = []) →
      Accounts items (shifts ++ [shift]) rest

/-- All shifts together have parted the stream. -/
theorem Accounts.ledger {items left : List Item} {shifts : List Shift} (accounts : Accounts items shifts left) :
    ∃ taken parked, Ledger items taken parked ((shifts.flatMap Shift.skipped).map .ok) left := by
  induction accounts with
  | opening => exact ⟨[], [], .start items⟩
  | @shift shifts shift left rest taken parked before explained ledger told ih =>
    obtain ⟨earlier, kept, first⟩ := ih
    have both := first.append ledger
    rw [← List.map_append] at both
    rw [List.flatMap_append, List.flatMap_singleton]
    exact ⟨_, _, both⟩

section
variable {parse : Bytes → Except ParseError Message}

structure Relayed (items : List Item) (s : Relay parse) : Prop where
  clean : EndsClean s.current
  accounts : ∃ left taken parked, Accounts items s.shifts left ∧ Accounted left s.current taken parked

theorem Relayed.step {items : List Item} {s t : Relay parse} {label : RelayStep} (before : Relayed items s)
    (moved : s.step label = some t) : Relayed items t := by
  obtain ⟨clean, left, taken, parked, accounts, account⟩ := before
  cases label with
  | receive step =>
    obtain ⟨current, stepped, rfl⟩ := Option.map_eq_some_iff.mp moved
    obtain ⟨taken', parked', next⟩ := account.step stepped
    exact ⟨clean.step stepped, left, taken', parked', accounts, next⟩
  | close =>
    cases moved
    let reader := s.current.rx.reader
    have opened : Accounted ((segments newline (streamOf (handOn reader.buffer reader.reader))).map parse)
        (.new (handOn reader.buffer reader.reader) : Receivers parse) [] [] := .start _
    rw [streamOf_handOn, ← MsgReader.items_toConnection reader] at opened
    refine ⟨.new _, _, [], [], accounts.shift account.explained account.ledger fun told => ?_, opened⟩
    show reader.buffer = [] ∧ reader.toConnection.items = []
    have ended : reader = ⟨[], []⟩ := clean told
    rw [ended]
    exact ⟨rfl, rfl⟩

theorem Relayed.run {reader : List ReadEvent} {labels : List RelayStep} {s : Relay parse}
    (run : execute Relay.step (.new reader) labels = some s) :
    Relayed ((segments newline (streamOf reader)).map parse) s :=
  invariant_execute (Relayed _) (fun _ _ _ before moved => before.step moved)
    ⟨.new reader, _, [], [], .opening, .start reader⟩ run

end

/-- However often a receiving end is closed and another one takes over, and
whatever was asked of each, every shift accounts for what the ones before it have
left over, and together the messages returned, those given back, those that wait
and what is still to be read part the stream in its order. A shift that told
somebody of the end of the connection gives back no bytes and leaves nothing. -/
theorem handing_on (parse : Bytes → Except ParseError Message) (reader : List ReadEvent) (labels : List RelayStep)
    (s : Relay parse) (run : execute Relay.step (.new reader) labels = some s) :
    let items := (segments newline (streamOf reader)).map parse
    (∃ left taken parked, Accounts items s.shifts left ∧ Accounted left s.current taken parked) ∧
      ∃ taken parked, Ledger items taken parked ((s.skipped ++ s.current.rx.msgs.queue).map .ok)
        s.current.rx.reader.toConnection.items := by
  intro items
  obtain ⟨-, left, taken, parked, accounts, account⟩ := Relayed.run run
  refine ⟨⟨left, taken, parked, accounts, account⟩, ?_⟩
  obtain ⟨earlier, kept, ledger⟩ := accounts.ledger
  have both := ledger.append account.ledger
  rw [← List.map_append] at both
  exact ⟨_, _, both⟩

def partedReads : List ReadEvent :=
  let first := frame (Message.text (.stdin .closed)) ++ (Message.text (.kill ⟨9⟩)).take 5
  let second := frame ((Message.text (.kill ⟨9⟩)).drop 5)
  [.data ⟨first, by decide +kernel⟩, .pending, .data ⟨second, by decide +kernel⟩]

theorem handing_on_parted :
    let parse := parseWith (knownText [.stdin .closed, .kill ⟨9⟩])
    let items := (segments newline (streamOf partedReads)).map parse
    ∃ s : Relay parse, s.shifts.map Shift.bytes = [(Message.text (.kill ⟨9⟩)).take 5, []] ∧
      s.skipped = [.stdin .closed] ∧
      (∃ left taken parked, Accounts items s.shifts left ∧ Accounted left s.current taken parked) ∧
      ∃ taken parked, Ledger items taken parked ((s.skipped ++ s.current.rx.msgs.queue).map .ok)
        s.current.rx.reader.toConnection.items := by
  intro parse items
  let wait : RelayStep := .receive (.pollRecv .kill)
  have completes : (execute Relay.step (.new partedReads : Relay parse) [wait, .close, wait, wait, .close]).map
      (fun s => (s.shifts.map Shift.bytes, s.skipped)) =
      some ([(Message.text (.kill ⟨9⟩)).take 5, []], [.stdin .closed]) := by decide +kernel
  obtain ⟨s, run, reached⟩ := Option.map_eq_some_iff.mp completes
  obtain ⟨bytes, skipped⟩ := Prod.mk.inj reached
  exact ⟨s, bytes, skipped, handing_on parse partedReads _ s run⟩

end MinimalVm.Io
