import MinimalVm.Io.Mailbox
import MinimalVm.Io.TypedReceive

/-! Which of the messages the receivers of one type have got.

Receivers of other types read on past them and leave them in the queue. As long
as no other type takes messages of this one, what its receivers have got and what
is still to come for them is all of its mail, in the order in which it was sent.
-/

set_option autoImplicit false

namespace MinimalVm.Io

open MinimalVm.Semantics MinimalVm.Protocol MinimalVm.Text

def Answer.brings (receiver : Receiver) (this : Answer) : List receiver.Carrier :=
  if same : this.receiver = receiver then delivered (same ▸ this.outcome) else []

def got (receiver : Receiver) (answers : List Answer) : List receiver.Carrier :=
  answers.flatMap (Answer.brings receiver)

/-- Nobody else has asked for messages of this type. -/
def KeptApart (receiver : Receiver) (answers : List Answer) : Prop :=
  ∀ answer ∈ answers, answer.receiver = receiver ∨ Apart answer.receiver.Carrier receiver.Carrier

section
variable {receiver other : Receiver} {answers : List Answer}

theorem brings_own (outcome : PollRecv receiver.Carrier) :
    Answer.brings receiver ⟨receiver, outcome⟩ = delivered outcome := dif_pos rfl

theorem brings_other (apart : other ≠ receiver) (outcome : PollRecv other.Carrier) :
    Answer.brings receiver ⟨other, outcome⟩ = [] := dif_neg apart

theorem got_snoc (answer : Answer) :
    got receiver (answers ++ [answer]) = got receiver answers ++ answer.brings receiver := by
  rw [got, List.flatMap_append, List.flatMap_singleton]
  rfl

end

/-- The mail of a type has been got or is still to come, and none is to come once
one of its receivers was told of the end. -/
structure Sorted {parse : Bytes → Except ParseError Message} (receiver : Receiver) (msgs : List Message)
    (s : Receivers parse) : Prop where
  all : mail receiver.Carrier msgs = got receiver s.answers ++ mail receiver.Carrier s.rx.toLines.messages
  told : ⟨receiver, .ready (.ok none)⟩ ∈ s.answers → mail receiver.Carrier s.rx.toLines.messages = []

namespace Sorted

variable {parse : Bytes → Except ParseError Message} {receiver : Receiver} {msgs : List Message} {s : Receivers parse}

theorem callOwn (before : Sorted receiver msgs s) : Sorted receiver msgs (s.call receiver) := by
  have polled := s.rx.pollRecv_toLines (M := receiver.Carrier)
  have mails := s.rx.toLines.pollRecv_mail (M := receiver.Carrier)
  have eof := s.rx.toLines.pollRecv_eof (M := receiver.Carrier)
  rw [polled] at mails eof
  have empty (none : mail receiver.Carrier s.rx.toLines.messages = []) :
      mail receiver.Carrier (s.call receiver).rx.toLines.messages = [] := by
    rw [none] at mails
    exact (List.append_eq_nil_iff.mp mails.symm).2
  constructor
  · show _ = got receiver (s.answers ++ [_]) ++ _
    rw [got_snoc, brings_own, before.all, mails, List.append_assoc]
    rfl
  · intro told
    rcases List.mem_append.mp told with earlier | now
    · exact empty (before.told earlier)
    · obtain ⟨-, same⟩ := Answer.mk.inj (List.mem_singleton.mp now)
      exact empty (RxLocal.exhausted_mail (eof.mp (eq_of_heq same).symm))

theorem callOther (before : Sorted receiver msgs s) {other : Receiver} (different : other ≠ receiver)
    (apart : Apart other.Carrier receiver.Carrier) : Sorted receiver msgs (s.call other) := by
  have polled := s.rx.pollRecv_toLines (M := other.Carrier)
  have mails := s.rx.toLines.pollRecv_mail_apart (M := other.Carrier) apart
  rw [polled] at mails
  constructor
  · show _ = got receiver (s.answers ++ [_]) ++ _
    rw [got_snoc, brings_other different, List.append_nil, before.all, ← mails]
    rfl
  · intro told
    rcases List.mem_append.mp told with earlier | now
    · exact mails.trans (before.told earlier)
    · exact absurd (Answer.mk.inj (List.mem_singleton.mp now)).1.symm different

theorem call (before : Sorted receiver msgs s) (other : Receiver)
    (apart : other = receiver ∨ Apart other.Carrier receiver.Carrier) : Sorted receiver msgs (s.call other) := by
  by_cases same : other = receiver
  · exact same ▸ before.callOwn
  · exact before.callOther same (apart.resolve_left same)

theorem step {t : Receivers parse} {label : ReceiveStep}
    (before : KeptApart receiver s.answers → Sorted receiver msgs s)
    (moved : s.step label = some t) (apart : KeptApart receiver t.answers) : Sorted receiver msgs t := by
  have called (other : Receiver) (apart : KeptApart receiver (s.call other).answers) :
      Sorted receiver msgs (s.call other) := by
    have earlier : KeptApart receiver s.answers := fun answer member => apart answer (List.mem_append_left _ member)
    exact (before earlier).call other (apart _ List.mem_concat_self)
  cases label with
  | recv other =>
    cases moved
    exact ⟨(before apart).all, (before apart).told⟩
  | poll future =>
    simp only [Receivers.step] at moved
    split at moved
    · cases moved
      have after := called _ apart
      exact ⟨after.all, after.told⟩
    · cases moved
  | drop future =>
    simp only [Receivers.step] at moved
    split at moved
    · cases moved
      exact ⟨(before apart).all, (before apart).told⟩
    · cases moved
  | pollRecv other =>
    cases moved
    exact called other apart

theorem run {reader : List ReadEvent} {labels : List ReceiveStep}
    (run : execute Receivers.step (.new reader) labels = some s) (apart : KeptApart receiver s.answers) :
    Sorted receiver (RxLocal.new (.new reader : MsgReader parse)).toLines.messages s := by
  refine invariant_execute (fun s => KeptApart receiver s.answers → Sorted receiver _ s)
    (fun _ _ _ before moved => step before moved) (fun _ => ⟨rfl, fun told => ?_⟩) run apart
  exact (List.not_mem_nil told).elim

end Sorted

end MinimalVm.Io
