import MinimalVm.Io.Send
import MinimalVm.Protocol.Codec
import MinimalVm.Semantics.Execution

/-! Senders on clones of one sending end.

Any number of futures are created, polled and dropped in any order over a
writer that may accept a part, nothing, or fail. The bytes emitted are always
whole frames in the order in which their payloads were taken, and each future
has contributed a prefix of its messages.
-/

set_option autoImplicit false

namespace MinimalVm.Io

open MinimalVm.Semantics MinimalVm.Protocol MinimalVm.Text

structure SendCall where
  msgs : List Message
  future : DoSend
  polls : List Polled
  dropped : Bool

/-- Clones of one `Tx`. The payloads are listed in the order in which polls
took them, each with the future it came from. -/
structure Senders (σ : Type) where
  tx : Tx (Recorded σ)
  calls : List SendCall
  order : List (Nat × Bytes)

/-- A writer is the only thing a step does not decide, so its state may also
change by itself. -/
inductive SendStep (σ : Type) where
  | request (request : SendRequest)
  | poll (call : Nat)
  | drop (call : Nat)
  | writer (state : σ)

def contributed (order : List (Nat × Bytes)) (call : Nat) : List Bytes :=
  order.filterMap fun entry => if entry.1 = call then some entry.2 else none

theorem contributed_append (order : List (Nat × Bytes)) (call other : Nat) (taken : List Bytes) :
    contributed (order ++ taken.map (call, ·)) other =
      contributed order other ++ if call = other then taken else [] := by
  rw [contributed, List.filterMap_append, ← contributed, List.filterMap_map]
  congr 1
  show taken.filterMap (fun payload => if call = other then some payload else none) = _
  by_cases same : call = other <;> simp [same]

theorem contributed_unknown {order : List (Nat × Bytes)} {call : Nat}
    (known : ∀ entry ∈ order, entry.1 < call) : contributed order call = [] := by
  rw [contributed, List.filterMap_eq_nil_iff]
  intro entry member
  rw [if_neg (Nat.ne_of_lt (known entry member))]

namespace Senders

variable {σ : Type} (w : AsyncWrite σ) (test : Bool) (toVec : Message → Except SerializeError Bytes)
  (debug : Message → String)

def new (state : σ) : Senders σ := ⟨.new ⟨state, []⟩, [], []⟩

def disturbed (state : σ) (tx : Tx (Recorded σ)) : Tx (Recorded σ) :=
  ⟨tx.shared.map fun tx => { tx with writer := { tx.writer with state } }⟩

def pollCall (this : Senders σ) (i : Nat) (call : SendCall) : Senders σ :=
  let (polled, tx, future) := call.future.poll w.recording test this.tx
  let taken := call.future.untaken.take (call.future.untaken.length - future.untaken.length)
  { tx
    calls := this.calls.set i { call with future, polls := call.polls ++ [polled] }
    order := this.order ++ taken.map (i, ·) }

def step (this : Senders σ) : SendStep σ → Option (Senders σ)
  | .request request =>
    some { this with calls := this.calls ++ [⟨request.msgs, request.future toVec debug, [], false⟩] }
  | .poll i =>
    match this.calls[i]? with
    | some call => if call.dropped then none else some (this.pollCall w test i call)
    | none => none
  | .drop i =>
    match this.calls[i]? with
    | some call => some { this with calls := this.calls.set i { call with dropped := true } }
    | none => none
  | .writer state => some { this with tx := disturbed state this.tx }

end Senders

variable {σ : Type} {w : AsyncWrite σ} {test : Bool} {toVec : Message → Except SerializeError Bytes}
  {debug : Message → String}

structure Contributes (toVec : Message → Except SerializeError Bytes) (call : SendCall)
    (payloads : List Bytes) : Prop where
  divided : ∀ left, call.future.msgs = .ok left →
    call.msgs.map toVec = (payloads ++ left.flatMap Sending.payloads).map .ok
  refused : ∀ error, call.future.msgs = .error error → payloads = []
  finished : .answered (.ready (.ok ())) ∈ call.polls → call.msgs.map toVec = payloads.map .ok
  answers : .panicked ∉ call.polls

theorem prepareMsgs_payloads {msgs : List Message} {prepared : List Sending}
    (encoded : DoSend.prepareMsgs toVec debug msgs = .ok prepared) :
    msgs.map toVec = (prepared.flatMap Sending.payloads).map .ok := by
  induction msgs generalizing prepared with
  | nil =>
    cases encoded
    rfl
  | cons msg msgs ih =>
    simp only [DoSend.prepareMsgs, List.mapM_cons, Sending.new] at encoded
    cases first : toVec msg with
    | error cause => rw [first] at encoded; cases encoded
    | ok bytes =>
      rw [first] at encoded
      cases rest : DoSend.prepareMsgs toVec debug msgs with
      | error cause =>
        simp only [DoSend.prepareMsgs, Sending.new] at rest
        rw [rest] at encoded
        cases encoded
      | ok others =>
        have later := ih rest
        simp only [DoSend.prepareMsgs, Sending.new] at rest
        rw [rest] at encoded
        cases encoded
        simp [first, later, Sending.payloads]

namespace Contributes

theorem request (toVec : Message → Except SerializeError Bytes) (debug : Message → String)
    (request : SendRequest) : Contributes toVec ⟨request.msgs, request.future toVec debug, [], false⟩ [] where
  divided left prepared := by
    cases request with
    | send msgs => exact prepareMsgs_payloads prepared
    | sendAndFlush msgs => exact prepareMsgs_payloads prepared
    | flush => cases prepared; rfl
  refused _ _ := rfl
  finished := nofun
  answers := nofun

theorem drop {call : SendCall} {payloads : List Bytes} (before : Contributes toVec call payloads) :
    Contributes toVec { call with dropped := true } payloads :=
  ⟨before.divided, before.refused, before.finished, before.answers⟩

theorem moved {call : SendCall} {payloads : List Bytes} (before : Contributes toVec call payloads)
    {future : DoSend} {left left' : List Sending} {taken : List Bytes} {answers : List Polled}
    (had : call.future.msgs = .ok left) (has : future.msgs = .ok left')
    (split : left.flatMap Sending.payloads = taken ++ left'.flatMap Sending.payloads)
    (calm : .panicked ∉ answers) (complete : .answered (.ready (.ok ())) ∈ answers → left' = []) :
    Contributes toVec { call with future, polls := call.polls ++ answers } (payloads ++ taken) := by
  have whole := before.divided left had
  rw [split] at whole
  constructor
  · intro left'' same
    cases has.symm.trans same
    simpa using whole
  · intro error failed
    cases has.symm.trans failed
  · intro member
    rcases List.mem_append.mp member with earlier | now
    · -- A future that has succeeded has nothing left to contribute.
      have already := congrArg List.length ((before.finished earlier).symm.trans whole)
      have none : taken = [] := by
        rw [← List.length_eq_zero_iff]
        simp only [List.length_map, List.length_append] at already
        omega
      simpa [none] using before.finished earlier
    · simpa [complete now] using whole
  · intro member
    rcases List.mem_append.mp member with earlier | now
    · exact before.answers earlier
    · exact calm now

theorem refusing {call : SendCall} {payloads : List Bytes} (before : Contributes toVec call payloads)
    (error : SendError) :
    Contributes toVec { call with polls := call.polls ++ [.answered (.ready (.error error))] } (payloads ++ []) := by
  rw [List.append_nil]
  refine ⟨before.divided, before.refused, ?_, ?_⟩
  · intro member
    apply before.finished
    simpa using member
  · intro member
    apply before.answers
    simpa using member

theorem poll {call : SendCall} {payloads : List Bytes} (before : Contributes toVec call payloads)
    (w : AsyncWrite σ) (test : Bool) (tx : Tx (Recorded σ)) :
    let result := call.future.poll w.recording test tx
    ∃ taken, call.future.untaken = taken ++ result.2.2.untaken ∧
      result.2.1.emitted = tx.emitted ++ framesOf taken ∧
      Contributes toVec { call with future := result.2.2, polls := call.polls ++ [result.1] }
        (payloads ++ taken) := by
  obtain ⟨msgs, ⟨error | left, flush⟩, polls, dropped⟩ := call
  · exact ⟨[], rfl, (List.append_nil _).symm, before.refusing error⟩
  · obtain ⟨left', same, ⟨calm, complete⟩, taken, split, emitted⟩ :=
      DoSend.poll_transferred w test left flush tx
    refine ⟨taken, ?_, emitted, ?_⟩
    · simpa [DoSend.untaken, same] using split
    · apply before.moved rfl same split
      · intro member
        exact calm (List.mem_singleton.mp member).symm
      · intro member
        exact complete (List.mem_singleton.mp member).symm

end Contributes

theorem take_given {before taken after : List Bytes} (split : before = taken ++ after) :
    before.take (before.length - after.length) = taken := by
  rw [split, List.length_append, Nat.add_sub_cancel, List.take_left' rfl]

structure Credited (toVec : Message → Except SerializeError Bytes) (calls : List SendCall)
    (order : List (Nat × Bytes)) : Prop where
  each : ∀ i call, calls[i]? = some call → Contributes toVec call (contributed order i)
  known : ∀ entry ∈ order, entry.1 < calls.length

namespace Credited

variable {calls : List SendCall} {order : List (Nat × Bytes)}

theorem request (credited : Credited toVec calls order) (debug : Message → String) (request : SendRequest) :
    Credited toVec (calls ++ [⟨request.msgs, request.future toVec debug, [], false⟩]) order := by
  constructor
  · intro i call found
    rcases Nat.lt_or_ge i calls.length with old | new
    · rw [List.getElem?_append_left old] at found
      exact credited.each i call found
    · -- Nothing has been taken from a call that did not exist.
      rw [List.getElem?_append_right new, List.getElem?_singleton] at found
      split at found <;> cases found
      have unknown : contributed order i = [] :=
        contributed_unknown fun entry member => Nat.lt_of_lt_of_le (credited.known entry member) new
      exact unknown ▸ .request toVec debug request
  · intro entry member
    have := credited.known entry member
    simp only [List.length_append, List.length_singleton]
    omega

theorem extend (credited : Credited toVec calls order) {i : Nat} {call call' : SendCall} {taken : List Bytes}
    (present : calls[i]? = some call) (after : Contributes toVec call' (contributed order i ++ taken)) :
    Credited toVec (calls.set i call') (order ++ taken.map (i, ·)) := by
  have inside : i < calls.length := (List.getElem?_eq_some_iff.mp present).1
  constructor
  · intro j other found
    rw [contributed_append]
    rcases Nat.decEq i j with apart | same
    · rw [List.getElem?_set_ne apart] at found
      simpa [apart] using credited.each j other found
    · subst same
      rw [List.getElem?_set_self inside] at found
      cases found
      simpa using after
  · intro entry member
    rw [List.length_set]
    rcases List.mem_append.mp member with earlier | now
    · exact credited.known entry earlier
    · obtain ⟨_, _, rfl⟩ := List.mem_map.mp now
      exact inside

theorem drop (credited : Credited toVec calls order) {i : Nat} {call : SendCall}
    (present : calls[i]? = some call) :
    Credited toVec (calls.set i { call with dropped := true }) order := by
  have own := (credited.each i call present).drop
  rw [← List.append_nil (contributed order i)] at own
  simpa using credited.extend present own

end Credited

/-- The bytes emitted are the frames taken, and every future contributes its
own messages. -/
structure Intact (toVec : Message → Except SerializeError Bytes) (s : Senders σ) : Prop where
  isOpen : s.tx.isOpen = true
  emitted : s.tx.emitted = framesOf (s.order.map Prod.snd)
  calls : ∀ i call, s.calls[i]? = some call → Contributes toVec call (contributed s.order i)
  known : ∀ entry ∈ s.order, entry.1 < s.calls.length

namespace Intact

theorem start (state : σ) : Intact toVec (.new state : Senders σ) :=
  ⟨rfl, rfl, nofun, nofun⟩

theorem credited {s : Senders σ} (intact : Intact toVec s) : Credited toVec s.calls s.order :=
  ⟨intact.calls, intact.known⟩

theorem of_credited {s : Senders σ} (isOpen : s.tx.isOpen = true)
    (emitted : s.tx.emitted = framesOf (s.order.map Prod.snd)) (credited : Credited toVec s.calls s.order) :
    Intact toVec s :=
  ⟨isOpen, emitted, credited.each, credited.known⟩

theorem pollCall {s : Senders σ} {i : Nat} {call : SendCall} (intact : Intact toVec s)
    (present : s.calls[i]? = some call) : Intact toVec (s.pollCall w test i call) := by
  obtain ⟨taken, split, emitted, after⟩ :=
    (intact.calls i call present).poll w test s.tx
  have newly := take_given split
  apply of_credited
  · exact (DoSend.poll_open w.recording test call.future s.tx).trans intact.isOpen
  · simp only [Senders.pollCall, newly, emitted, intact.emitted, List.map_append, framesOf_append,
      List.map_map, Function.comp_def, List.map_id']
  · simp only [Senders.pollCall, newly]
    exact intact.credited.extend present after

theorem step {s t : Senders σ} {label : SendStep σ} (intact : Intact toVec s)
    (moved : s.step w test toVec debug label = some t) : Intact toVec t := by
  cases label with
  | request request =>
    cases moved
    exact of_credited intact.isOpen intact.emitted (intact.credited.request debug request)
  | poll i =>
    simp only [Senders.step] at moved
    split at moved
    · rename_i call present
      split at moved
      · cases moved
      · cases moved
        exact intact.pollCall present
    · cases moved
  | drop i =>
    simp only [Senders.step] at moved
    split at moved
    · rename_i call present
      cases moved
      exact of_credited intact.isOpen intact.emitted (intact.credited.drop present)
    · cases moved
  | writer state =>
    cases moved
    obtain ⟨⟨error | tx⟩, calls, order⟩ := s
    · cases intact.isOpen
    · exact ⟨rfl, intact.emitted, intact.calls, intact.known⟩

end Intact

/-- The bytes the writer has accepted and those still to be transmitted are the
frames of the payloads taken, in that order. Every future contributed a prefix
of its encoded messages, all of them if it succeeded, and none ran into the
assertion. -/
theorem wire_integrity (w : AsyncWrite σ) (test : Bool) (toVec : Message → Except SerializeError Bytes)
    (debug : Message → String) (state : σ) (labels : List (SendStep σ)) (s : Senders σ)
    (run : execute (Senders.step w test toVec debug) (.new state) labels = some s) :
    ∃ tx, s.tx.shared = .ok tx ∧
      tx.writer.accepted ++ tx.transmitting = s.order.flatMap (fun entry => entry.2 ++ [newline]) ∧
      ∀ i call, s.calls[i]? = some call →
        (contributed s.order i).map .ok <+: call.msgs.map toVec ∧
        (.answered (.ready (.ok ())) ∈ call.polls →
          (contributed s.order i).map .ok = call.msgs.map toVec) ∧
        .panicked ∉ call.polls := by
  have intact : Intact toVec s :=
    invariant_execute (Intact toVec) (fun _ _ _ before moved => before.step moved) (.start state) run
  obtain ⟨⟨error | tx⟩, calls, order⟩ := s
  · cases intact.isOpen
  · refine ⟨tx, rfl, ?_, ?_⟩
    · have emitted := intact.emitted
      rw [framesOf, List.flatMap_map] at emitted
      exact emitted
    · intro i call found
      have own := intact.calls i call found
      refine ⟨?_, fun done => (own.finished done).symm, own.answers⟩
      cases kept : call.future.msgs with
      | error error => simp [own.refused error kept]
      | ok left =>
        rw [own.divided left kept, List.map_append]
        exact List.prefix_append _ _

def messageText (m : Message) : Except SerializeError Bytes := .ok m.text

/-- Two senders over a writer that takes a few bytes, waits, fails and closes:
the first message is out in two pieces, the second one waits in the buffer. -/
theorem wire_integrity_kill :
    ∃ s : Senders (List (Poll (Except IoError Nat))),
      (∃ call, s.calls[1]? = some call ∧ call.polls.length = 3) ∧
      ∃ tx, s.tx.shared = .ok tx ∧
        tx.writer.accepted ++ tx.transmitting = s.order.flatMap (fun entry => entry.2 ++ [newline]) ∧
        ∀ i call, s.calls[i]? = some call →
          (contributed s.order i).map .ok <+: call.msgs.map messageText ∧
          (.answered (.ready (.ok ())) ∈ call.polls →
            (contributed s.order i).map .ok = call.msgs.map messageText) ∧
          .panicked ∉ call.polls := by
  let script : List (Poll (Except IoError Nat)) :=
    [.ready (.ok 3), .pending, .ready (.error ⟨"Input/output error (os error 5)"⟩), .ready (.ok 0), .ready (.ok 100)]
  let labels : List (SendStep (List (Poll (Except IoError Nat)))) :=
    [.request (.send [.kill ⟨9⟩]), .request (.sendAndFlush [.stdin .closed]), .poll 0, .poll 1, .drop 0,
      .poll 1, .poll 1]
  have completes : ((execute (Senders.step scripted false messageText (fun _ => "")) (.new script)
      labels).bind fun s => s.calls[1]?.map fun call => call.polls.length) = some 3 := by
    decide +kernel
  obtain ⟨s, run, polled⟩ := Option.bind_eq_some_iff.mp completes
  obtain ⟨call, found, length⟩ := Option.map_eq_some_iff.mp polled
  exact ⟨s, ⟨call, found, length⟩,
    wire_integrity scripted false messageText (fun _ => "") script labels s run⟩

end MinimalVm.Io
