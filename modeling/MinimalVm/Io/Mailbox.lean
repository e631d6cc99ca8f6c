import MinimalVm.Io.Receive

/-! The mail of each type of receiver.

A receiving end holds mail for every type: the messages of that type that wait
in its queue or are still to be read. A poll takes the first of its own mail or
none of it, and leaves the mail of every type apart from its own as it was,
however many messages it reads past.
-/

set_option autoImplicit false

namespace MinimalVm.Io

open MinimalVm.Semantics MinimalVm.Protocol MinimalVm.Text

def wellFormed (items : List Item) : List Message := items.filterMap Except.toOption

def mail (M : Type) [FromMessage M] (msgs : List Message) : List M :=
  msgs.filterMap fun msg => (fromMessage msg).toOption

/-- No message belongs to receivers of both types. -/
def Apart (M N : Type) [FromMessage M] [FromMessage N] : Prop :=
  ∀ msg, Accepts M msg = true → Accepts N msg = false

def delivered {M : Type} : PollRecv M → List M
  | .ready (.ok (some m)) => [m]
  | .ready (.ok none) | .ready (.error _) | .pending => []

section
variable {M N : Type} [FromMessage M] [FromMessage N]

@[simp] theorem mail_append (first rest : List Message) : mail M (first ++ rest) = mail M first ++ mail M rest :=
  List.filterMap_append

theorem mail_accepted {msg : Message} {m : M} (converted : fromMessage msg = .ok m) (rest : List Message) :
    mail M (msg :: rest) = m :: mail M rest :=
  List.filterMap_cons_some (by rw [converted]; rfl)

theorem mail_refused {msg : Message} (refused : Accepts M msg = false) (rest : List Message) :
    mail M (msg :: rest) = mail M rest := by
  apply List.filterMap_cons_none
  unfold Accepts at refused
  split at refused
  · cases refused
  · rename_i back converted
    rw [converted]
    rfl

theorem mail_eq_nil {msgs : List Message} : mail M msgs = [] ↔ Refused M msgs := by
  constructor
  · intro empty msg member
    have none := List.filterMap_eq_nil_iff.mp empty msg member
    unfold Accepts
    cases converted : fromMessage (M := M) msg with
    | ok m =>
      rw [converted] at none
      cases none
    | error back => rfl
  · intro refused
    induction msgs with
    | nil => rfl
    | cons msg rest ih =>
      rw [mail_refused (refused msg List.mem_cons_self)]
      exact ih fun other member => refused other (List.mem_cons_of_mem msg member)

theorem mail_apart (apart : Apart M N) {msg : Message} {m : M} (converted : fromMessage msg = .ok m)
    (before after : List Message) : mail N (before ++ msg :: after) = mail N (before ++ after) := by
  rw [mail_append, mail_append, mail_refused (apart msg (accepts_of_ok converted))]

end

/-! ## The mail of a receiving end -/

def Connection.messages (this : Connection) : List Message := wellFormed this.items

theorem Connection.mem_messages {this : Connection} {msg : Message} : msg ∈ this.messages ↔ .ok msg ∈ this.items := by
  constructor
  · intro member
    obtain ⟨item, arrives, same⟩ := List.mem_filterMap.mp member
    cases item with
    | error error => cases same
    | ok msg =>
      cases same
      exact arrives
  · intro arrives
    exact List.mem_filterMap.mpr ⟨_, arrives, rfl⟩

theorem messages_messageLines (passed : List Message) (rest : List ConnectionEvent) :
    (Connection.mk (messageLines passed ++ rest)).messages = passed ++ (Connection.mk rest).messages := by
  induction passed with
  | nil => rfl
  | cons msg passed ih => exact congrArg (msg :: ·) ih

namespace RxLocal

def messages (this : RxLocal Connection) : List Message := this.msgs.queue ++ this.reader.messages

/-- Everything up to the end of the connection can be read at once, and there is
nothing in it for the receiver. -/
def exhausted (M : Type) [FromMessage M] (this : RxLocal Connection) : Bool :=
  this.msgs.queue.all (fun msg => !Accepts M msg) && this.reader.events.all fun event =>
    match event with
    | .line (.ok msg) => !Accepts M msg
    | .line (.error _) | .pending | .failed _ => false

section
variable {M N : Type} [FromMessage M] [FromMessage N] [LawfulFromMessage M]

inductive Takes (M : Type) [FromMessage M] : List Message → PollRecv M → List Message → Prop
  | first {before after : List Message} {msg : Message} {m : M} : Refused M before → fromMessage msg = .ok m →
      Takes M (before ++ msg :: after) (.ready (.ok (some m))) (before ++ after)
  | none {msgs : List Message} {outcome : PollRecv M} : delivered outcome = [] → Takes M msgs outcome msgs

theorem pollRecv_takes (this : RxLocal Connection) :
    Takes M this.messages (this.pollRecv M).1 (this.pollRecv M).2.messages := by
  have received := pollRecv_received (M := M) this
  generalize this.pollRecv M = result at received
  cases received with
  | @queued connection before after msg m skipped converted =>
    simp only [messages, List.append_assoc, List.cons_append]
    exact .first skipped converted
  | @read queue passed last rest outcome skipped beyond ended =>
    simp only [messages, messages_messageLines, ← List.append_assoc]
    cases ended with
    | pending => exact .none rfl
    | eof => exact .none rfl
    | failed => exact .none rfl
    | malformed => exact .none rfl
    | message converted => exact .first (refused_append.mpr ⟨skipped, beyond⟩) converted

/-- A poll takes the first of its own mail, or none. -/
theorem pollRecv_mail (this : RxLocal Connection) :
    mail M this.messages = delivered (this.pollRecv M).1 ++ mail M (this.pollRecv M).2.messages := by
  have takes := pollRecv_takes (M := M) this
  generalize this.pollRecv M = result at takes
  obtain ⟨outcome, rx⟩ := result
  generalize this.messages = msgs at takes
  generalize rx.messages = msgs' at takes
  cases takes with
  | first skipped converted =>
    rw [mail_append, mail_append, mail_eq_nil.mpr skipped, mail_accepted converted]
    rfl
  | none nothing =>
    rw [nothing]
    rfl

theorem pollRecv_mail_apart (apart : Apart M N) (this : RxLocal Connection) :
    mail N (this.pollRecv M).2.messages = mail N this.messages := by
  have takes := pollRecv_takes (M := M) this
  generalize this.pollRecv M = result at takes
  obtain ⟨outcome, rx⟩ := result
  generalize this.messages = msgs at takes
  generalize rx.messages = msgs' at takes
  cases takes with
  | first skipped converted => exact (mail_apart apart converted _ _).symm
  | none nothing => rfl

theorem pollRecv_eof (this : RxLocal Connection) :
    (this.pollRecv M).1 = .ready (.ok none) ↔ this.exhausted M = true := by
  have received := pollRecv_received (M := M) this
  generalize this.pollRecv M = result at received
  cases received with
  | @queued connection before after msg m skipped converted =>
    constructor
    · intro ended
      cases ended
    · intro all
      simp [exhausted, accepts_of_ok converted] at all
  | @read queue passed last rest outcome skipped beyond ended =>
    constructor
    · intro nothing
      cases nothing
      cases ended
      simp only [exhausted, Bool.and_eq_true, List.all_eq_true, List.append_nil, messageLines]
      refine ⟨fun msg member => by simp [skipped msg member], fun event member => ?_⟩
      obtain ⟨msg, unread, rfl⟩ := List.mem_map.mp member
      simp [beyond msg unread]
    · intro all
      cases ended with
      | eof => rfl
      | pending => simp [exhausted] at all
      | failed => simp [exhausted] at all
      | malformed => simp [exhausted] at all
      | message converted => simp [exhausted, accepts_of_ok converted] at all

omit [LawfulFromMessage M] in
theorem exhausted_mail {this : RxLocal Connection} (ended : this.exhausted M = true) :
    mail M this.messages = [] := by
  obtain ⟨⟨events⟩, ⟨queue⟩⟩ := this
  simp only [exhausted, Bool.and_eq_true, List.all_eq_true, Bool.not_eq_true'] at ended
  obtain ⟨waiting, unread⟩ := ended
  rw [mail_eq_nil]
  refine refused_append.mpr ⟨waiting, fun msg member => ?_⟩
  obtain ⟨event, arrives, line⟩ := List.mem_filterMap.mp (Connection.mem_messages.mp member)
  have refused := unread event arrives
  cases event with
  | pending => cases line
  | failed error => cases line
  | line item =>
    cases line
    simpa using refused

end

theorem messages_new {parse : Bytes → Except ParseError Message} (reader : List ReadEvent) :
    (RxLocal.new (.new reader : MsgReader parse)).toLines.messages =
      wellFormed ((segments newline (streamOf reader)).map parse) :=
  congrArg wellFormed (MsgReader.items_toConnection (.new reader : MsgReader parse))

end RxLocal

end MinimalVm.Io
