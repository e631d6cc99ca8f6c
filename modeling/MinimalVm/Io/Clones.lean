import MinimalVm.Io.Wire

/-! Clones of one `Tx` whose futures overtake each other inside a poll, and one
clone that is closed.

A poll takes the lock for every message and once more to flush, so between two
of its turns any other future may have one of its own. Closing flushes under
the lock, takes the transmit buffer out from behind it, and writes out and
shuts down alone.
-/

set_option autoImplicit false

namespace MinimalVm.Io

open MinimalVm.Semantics MinimalVm.Protocol MinimalVm.Text

/-! ## One turn of a poll -/

def Polled.succeeded : Polled → Bool
  | .answered (.ready (.ok ())) => true
  | .answered (.ready (.error _)) | .answered .pending | .panicked => false

theorem Polled.of_succeeded {polled : Option Polled} (succeeded : polled.map Polled.succeeded = some true) :
    polled = some (.answered (.ready (.ok ()))) := by
  match polled, succeeded with
  | some (.answered (.ready (.ok ()))), _ => rfl

namespace DoSend

variable {σ : Type} (w : AsyncWrite σ) (test : Bool)

/-- What a poll does while it holds the lock once. A poll that has no answer
yet goes on to its next turn. -/
def turn (tx : Tx σ) (this : DoSend) : Option Polled × Tx σ × DoSend :=
  match this.msgs with
  | .error error => (some (.answered (.ready (.error error))), tx, this)
  | .ok (msg :: msgs) =>
    match tx.pollSend w test msg with
    | (.pending, tx, msg) => (some (.answered .pending), tx, { this with msgs := .ok (msg :: msgs) })
    | (.ready (.error error), tx, msg) =>
      (some (.answered (.ready (.error error))), tx, { this with msgs := .ok (msg :: msgs) })
    | (.ready (.ok ()), tx, msg) =>
      if msg.bytes.isNone then (none, tx, { this with msgs := .ok msgs })
      else (some .panicked, tx, { this with msgs := .ok (msg :: msgs) })
  | .ok [] =>
    if this.flush then
      let (flushed, tx) := tx.pollFlush w
      (some (.answered flushed), tx, this)
    else (some (.answered (.ready (.ok ()))), tx, this)

/-- A poll is its turns, one after another. -/
theorem poll_turn (tx : Tx σ) (this : DoSend) :
    poll w test tx this =
      match turn w test tx this with
      | (some polled, tx, this) => (polled, tx, this)
      | (none, tx, this) => poll w test tx this := by
  obtain ⟨error | _ | ⟨msg, msgs⟩, flush⟩ := this
  · rfl
  · cases flush <;> rfl
  · simp only [poll, turn, sendAll]
    rcases tx.pollSend w test msg with ⟨_ | error | _, tx', msg'⟩
    · rfl
    · rfl
    · by_cases taken : msg'.bytes.isNone
      · simp only [taken, if_true]
      · simp only [taken, Bool.false_eq_true, if_false]

inductive Turned (tx : Tx σ) : DoSend → Option Polled × Tx σ × DoSend → Prop
  | refused {error : SendError} {flush : Bool} :
      Turned tx ⟨.error error, flush⟩ (some (.answered (.ready (.error error))), tx, ⟨.error error, flush⟩)
  | stopped {msg msg' : Sending} {msgs : List Sending} {flush : Bool} {outcome : PollSend} {tx' : Tx σ} :
      tx.pollSend w test msg = (outcome, tx', msg') → outcome ≠ .ready (.ok ()) →
      Turned tx ⟨.ok (msg :: msgs), flush⟩ (some (.answered outcome), tx', ⟨.ok (msg' :: msgs), flush⟩)
  | sent {msg : Sending} {msgs : List Sending} {flush : Bool} {tx' : Tx σ} :
      tx.pollSend w test msg = (.ready (.ok ()), tx', ⟨none⟩) →
      Turned tx ⟨.ok (msg :: msgs), flush⟩ (none, tx', ⟨.ok msgs, flush⟩)
  | flushed {outcome : PollSend} {tx' : Tx σ} : tx.pollFlush w = (outcome, tx') →
      Turned tx ⟨.ok [], true⟩ (some (.answered outcome), tx', ⟨.ok [], true⟩)
  | finished : Turned tx ⟨.ok [], false⟩ (some (.answered (.ready (.ok ()))), tx, ⟨.ok [], false⟩)

end DoSend

variable {σ : Type} (w : AsyncWrite σ) (test : Bool)

theorem TxLocal.pollSend_completed (this : TxLocal σ) (msg : Sending)
    (completed : (this.pollSend w test msg).1 = .ready (.ok ())) : (this.pollSend w test msg).2.2 = ⟨none⟩ := by
  unfold pollSend at completed ⊢
  split at completed
  · cases completed
  · cases completed
  · rfl

theorem Tx.pollSend_completed (this : Tx σ) (msg : Sending)
    (completed : (this.pollSend w test msg).1 = .ready (.ok ())) : (this.pollSend w test msg).2.2 = ⟨none⟩ := by
  obtain ⟨error | tx⟩ := this
  · cases completed
  · exact tx.pollSend_completed w test msg completed

theorem DoSend.turn_turned (tx : Tx σ) (this : DoSend) : Turned w test tx this (this.turn w test tx) := by
  obtain ⟨error | _ | ⟨msg, msgs⟩, flush⟩ := this
  · exact .refused
  · cases flush with
    | true => exact .flushed rfl
    | false => exact .finished
  · have taken := tx.pollSend_completed w test msg
    unfold turn
    dsimp only
    generalize polled : tx.pollSend w test msg = result at taken
    obtain ⟨_ | error | _, tx', msg'⟩ := result
    · exact .stopped polled nofun
    · exact .stopped polled nofun
    · cases taken rfl
      exact .sent polled

/-! ## Closing -/

inductive CloseError where
  | send (error : SendError)
  | shutdown (cause : IoError)
  deriving DecidableEq, Repr

def CloseError.message : CloseError → String
  | .send error => error.message
  | .shutdown _ => "Failed to shutdown connection"

inductive Closing (σ : Type) where
  | flushing
  | flushed
  | writing (this : TxLocal σ)
  | shutting (this : TxLocal σ)
  | closed (result : Except CloseError σ)

/-- Closing has the transmit buffer to itself, or had it. -/
def Closing.taken {σ : Type} : Closing σ → Bool
  | .flushing | .flushed | .closed (.error (.send _)) => false
  | .writing _ | .shutting _ | .closed (.ok _) | .closed (.error (.shutdown _)) => true

section
variable {σ : Type} (w : AsyncWrite σ)

def TxLocal.closeWrite (this : TxLocal σ) : Closing σ :=
  match w.pollWrite this.writer this.transmitting with
  | (.pending, writer) => .writing { this with writer }
  | (.ready (.error _), writer) => .shutting { this with writer }
  | (.ready (.ok n), writer) =>
    -- What is still in the buffer is lost; that is logged and nothing more.
    if n.val = 0 then .shutting { this with writer }
    else .writing ⟨writer, this.transmitting.drop n⟩

def TxLocal.closeShutdown (this : TxLocal σ) : Closing σ :=
  match w.pollShutdown this.writer with
  | (.pending, writer) => .shutting { this with writer }
  | (.ready (.error error), _) => .closed (.error (.shutdown error))
  | (.ready (.ok ()), writer) => .closed (.ok writer)

/-- One acquisition of the lock or one call of the writer by the clone that
closes. -/
def Closing.turn (tx : Tx σ) : Closing σ → Option (Tx σ × Closing σ)
  | .flushing =>
    match tx.pollFlush w with
    | (.pending, tx) => some (tx, .flushing)
    | (.ready (.error error), tx) => some (tx, .closed (.error (.send error)))
    | (.ready (.ok ()), tx) => some (tx, .flushed)
  | .flushed =>
    match tx.shared with
    | .ok this => some (⟨.error .closed⟩, .writing this)
    | .error error => some (⟨.error .closed⟩, .closed (.error (.send error)))
  | .writing this =>
    some (tx, if this.transmitting = [] then this.closeShutdown w else this.closeWrite w)
  | .shutting this => some (tx, this.closeShutdown w)
  | .closed _ => none

/-- A flush future has a single turn, and this is what closing awaits first. -/
theorem DoSend.turn_flush (test : Bool) (toVec : Message → Except SerializeError Bytes)
    (debug : Message → String) (tx : Tx σ) :
    (SendRequest.flush.future toVec debug).turn w test tx =
      (some (.answered (tx.pollFlush w).1), (tx.pollFlush w).2, SendRequest.flush.future toVec debug) := rfl

end

/-! ## Clones that send and one that closes -/

structure Clones (σ : Type) where
  tx : Tx (Recorded σ)
  closing : Closing (Recorded σ)
  calls : List SendCall
  order : List (Nat × Bytes)

inductive CloneStep (σ : Type) where
  | request (request : SendRequest)
  | turn (call : Nat)
  | drop (call : Nat)
  | close
  | writer (state : σ)

namespace Clones

variable {σ : Type} (w : AsyncWrite σ) (test : Bool) (toVec : Message → Except SerializeError Bytes)
  (debug : Message → String)

def new (state : σ) : Clones σ := ⟨.new ⟨state, []⟩, .flushing, [], []⟩

def disturbed (state : σ) : Closing (Recorded σ) → Closing (Recorded σ)
  | .writing this => .writing { this with writer := { this.writer with state } }
  | .shutting this => .shutting { this with writer := { this.writer with state } }
  | closing => closing

def turnCall (this : Clones σ) (i : Nat) (call : SendCall) : Clones σ :=
  let (polled, tx, future) := call.future.turn w.recording test this.tx
  let taken := call.future.untaken.take (call.future.untaken.length - future.untaken.length)
  { this with
    tx
    calls := this.calls.set i { call with future, polls := call.polls ++ polled.toList }
    order := this.order ++ taken.map (i, ·) }

theorem turnCall_found {this : Clones σ} {i : Nat} {call : SendCall} (present : this.calls[i]? = some call) :
    (this.turnCall w test i call).calls[i]? = some { call with
      future := (call.future.turn w.recording test this.tx).2.2
      polls := call.polls ++ (call.future.turn w.recording test this.tx).1.toList } :=
  List.getElem?_set_self (List.getElem?_eq_some_iff.mp present).1

def step (this : Clones σ) : CloneStep σ → Option (Clones σ)
  | .request request =>
    some { this with calls := this.calls ++ [⟨request.msgs, request.future toVec debug, [], false⟩] }
  | .turn i =>
    match this.calls[i]? with
    | some call => if call.dropped then none else some (this.turnCall w test i call)
    | none => none
  | .drop i =>
    match this.calls[i]? with
    | some call => some { this with calls := this.calls.set i { call with dropped := true } }
    | none => none
  | .close => (this.closing.turn w.recording this.tx).map fun (tx, closing) => { this with tx, closing }
  | .writer state =>
    some { this with tx := Senders.disturbed state this.tx, closing := disturbed state this.closing }

end Clones

/-- Everything a step of the clones can do. -/
inductive CloneMove {σ : Type} (w : AsyncWrite σ) (test : Bool)
    (toVec : Message → Except SerializeError Bytes) (debug : Message → String) (s : Clones σ) :
    CloneStep σ → Clones σ → Prop
  | request (request : SendRequest) : CloneMove w test toVec debug s (.request request)
      { s with calls := s.calls ++ [⟨request.msgs, request.future toVec debug, [], false⟩] }
  | turn {i : Nat} {call : SendCall} : s.calls[i]? = some call → call.dropped = false →
      CloneMove w test toVec debug s (.turn i) (s.turnCall w test i call)
  | drop {i : Nat} {call : SendCall} : s.calls[i]? = some call → CloneMove w test toVec debug s (.drop i)
      { s with calls := s.calls.set i { call with dropped := true } }
  | close {tx : Tx (Recorded σ)} {closing : Closing (Recorded σ)} :
      s.closing.turn w.recording s.tx = some (tx, closing) →
      CloneMove w test toVec debug s .close { s with tx, closing }
  | writer (state : σ) : CloneMove w test toVec debug s (.writer state)
      { s with tx := Senders.disturbed state s.tx, closing := Clones.disturbed state s.closing }

theorem Clones.step_move {σ : Type} {w : AsyncWrite σ} {test : Bool}
    {toVec : Message → Except SerializeError Bytes} {debug : Message → String} {s t : Clones σ}
    {label : CloneStep σ} (moved : s.step w test toVec debug label = some t) :
    CloneMove w test toVec debug s label t := by
  cases label with
  | request request =>
    cases moved
    exact .request request
  | turn i =>
    simp only [step] at moved
    split at moved
    · rename_i call present
      split at moved
      · cases moved
      · rename_i awaited
        cases moved
        exact .turn present (Bool.eq_false_iff.mpr awaited)
    · cases moved
  | drop i =>
    simp only [step] at moved
    split at moved
    · rename_i call present
      cases moved
      exact .drop present
    · cases moved
  | close =>
    obtain ⟨⟨tx, closing⟩, turned, rfl⟩ := Option.map_eq_some_iff.mp moved
    exact .close turned
  | writer state =>
    cases moved
    exact .writer state

/-! ## What a turn emits -/

section
variable {σ : Type} (w : AsyncWrite σ) (test : Bool)

theorem DoSend.turn_transferred (msgs : List Sending) (flush : Bool) (tx : Tx (Recorded σ)) :
    let result := turn w.recording test tx ⟨.ok msgs, flush⟩
    ∃ left, result.2.2 = ⟨.ok left, flush⟩ ∧ .panicked ∉ result.1.toList ∧
      (.answered (.ready (.ok ())) ∈ result.1.toList → left = []) ∧
      Transferred tx.emitted (msgs.flatMap Sending.payloads) result.2.1.emitted
        (left.flatMap Sending.payloads) := by
  have turned := turn_turned w.recording test tx ⟨.ok msgs, flush⟩
  generalize turn w.recording test tx ⟨.ok msgs, flush⟩ = result at turned
  cases turned with
  | @stopped msg msg' msgs _ outcome tx' polled failed =>
    have sent := tx.pollSend_sent w test msg
    rw [polled] at sent
    refine ⟨msg' :: msgs, rfl, by simp, ?_, sent.transferred _⟩
    intro member
    cases List.mem_singleton.mp member
    exact absurd rfl failed
  | @sent msg msgs _ tx' polled =>
    have sent := tx.pollSend_sent w test msg
    rw [polled] at sent
    exact ⟨msgs, rfl, by simp, by simp, sent.transferred _⟩
  | @flushed outcome tx' polled =>
    have emitted := tx.pollFlush_emitted w
    rw [polled] at emitted
    exact ⟨[], rfl, by simp, fun _ => rfl, [], rfl, by simpa [framesOf] using emitted⟩
  | finished => exact ⟨[], rfl, by simp, fun _ => rfl, .refl _ _⟩

theorem DoSend.turn_closed (this : DoSend) {tx : Tx σ} {error : SendError} (closed : tx.shared = .error error) :
    (this.turn w test tx).2.1 = tx ∧ (this.turn w test tx).2.2 = this := by
  obtain ⟨shared⟩ := tx
  cases closed
  obtain ⟨error | _ | ⟨msg, msgs⟩, flush⟩ := this
  · exact ⟨rfl, rfl⟩
  · cases flush <;> exact ⟨rfl, rfl⟩
  · exact ⟨rfl, rfl⟩

theorem DoSend.turn_open (this : DoSend) (tx : Tx σ) : (this.turn w test tx).2.1.isOpen = tx.isOpen := by
  have turned := this.turn_turned w test tx
  generalize this.turn w test tx = result at turned
  cases turned with
  | refused | finished => rfl
  | @stopped msg _ _ _ _ _ polled => rw [← tx.pollSend_open w test msg, polled]
  | @sent msg _ _ _ polled => rw [← tx.pollSend_open w test msg, polled]
  | flushed polled => rw [← tx.pollFlush_open w, polled]

end

section
variable {σ : Type} {w : AsyncWrite σ} {test : Bool} {toVec : Message → Except SerializeError Bytes}
  {debug : Message → String}

theorem Contributes.turn {call : SendCall} {payloads : List Bytes} (before : Contributes toVec call payloads)
    (w : AsyncWrite σ) (test : Bool) (tx : Tx (Recorded σ)) :
    let result := call.future.turn w.recording test tx
    ∃ taken, call.future.untaken = taken ++ result.2.2.untaken ∧
      result.2.1.emitted = tx.emitted ++ framesOf taken ∧
      Contributes toVec { call with future := result.2.2, polls := call.polls ++ result.1.toList }
        (payloads ++ taken) := by
  obtain ⟨msgs, ⟨error | left, flush⟩, polls, dropped⟩ := call
  · exact ⟨[], rfl, (List.append_nil _).symm, before.refusing error⟩
  · obtain ⟨left', same, calm, complete, taken, split, emitted⟩ :=
      DoSend.turn_transferred w test left flush tx
    refine ⟨taken, ?_, emitted, ?_⟩
    · simpa [DoSend.untaken, same] using split
    · exact before.moved rfl (congrArg DoSend.msgs same) split calm complete

/-! ## Where the frames are -/

/-- The bytes emitted, wherever the transmit buffer is. -/
def Placed (frames : Bytes) (tx : Tx (Recorded σ)) : Closing (Recorded σ) → Prop
  | .flushing | .flushed | .closed (.error (.send _)) => tx.isOpen = true ∧ tx.emitted = frames
  | .writing this | .shutting this => tx.shared = .error .closed ∧ this.emitted = frames
  | .closed (.ok writer) => tx.shared = .error .closed ∧ writer.accepted <+: frames
  | .closed (.error (.shutdown _)) => tx.shared = .error .closed

structure Kept (toVec : Message → Except SerializeError Bytes) (s : Clones σ) : Prop where
  placed : Placed (framesOf (s.order.map Prod.snd)) s.tx s.closing
  credited : Credited toVec s.calls s.order

theorem Placed.closed {frames : Bytes} {tx : Tx (Recorded σ)} {closing : Closing (Recorded σ)}
    (placed : Placed frames tx closing) (taken : closing.taken = true) : tx.shared = .error .closed := by
  match closing, placed, taken with
  | .writing _, placed, _ | .shutting _, placed, _ | .closed (.ok _), placed, _ => exact placed.1
  | .closed (.error (.shutdown _)), placed, _ => exact placed

theorem Placed.open {frames : Bytes} {tx : Tx (Recorded σ)} {closing : Closing (Recorded σ)}
    (placed : Placed frames tx closing) (untaken : closing.taken = false) :
    tx.isOpen = true ∧ tx.emitted = frames := by
  match closing, placed, untaken with
  | .flushing, placed, _ | .flushed, placed, _ | .closed (.error (.send _)), placed, _ => exact placed

theorem Placed.of_open {frames : Bytes} {tx : Tx (Recorded σ)} {closing : Closing (Recorded σ)}
    (untaken : closing.taken = false) (isOpen : tx.isOpen = true) (emitted : tx.emitted = frames) :
    Placed frames tx closing := by
  match closing, untaken with
  | .flushing, _ | .flushed, _ | .closed (.error (.send _)), _ => exact ⟨isOpen, emitted⟩

theorem TxLocal.closeShutdown_placed {frames : Bytes} {tx : Tx (Recorded σ)} {this : TxLocal (Recorded σ)}
    (closed : tx.shared = .error .closed) (emitted : this.emitted = frames) :
    Placed frames tx (this.closeShutdown w.recording) := by
  have kept : (w.recording.pollShutdown this.writer).2.accepted = this.writer.accepted := rfl
  unfold closeShutdown
  split
  · rename_i polled
    rw [polled] at kept
    exact ⟨closed, by rw [← emitted, TxLocal.emitted, TxLocal.emitted, kept]⟩
  · exact closed
  · rename_i polled
    rw [polled] at kept
    refine ⟨closed, ?_⟩
    rw [← emitted, kept]
    exact List.prefix_append _ _

theorem TxLocal.closeWrite_placed {frames : Bytes} {tx : Tx (Recorded σ)} {this : TxLocal (Recorded σ)}
    (closed : tx.shared = .error .closed) (emitted : this.emitted = frames) :
    Placed frames tx (this.closeWrite w.recording) := by
  unfold closeWrite
  split
  · rename_i polled
    exact ⟨closed, by rw [← emitted, TxLocal.emitted, TxLocal.emitted, AsyncWrite.recording_unwritten polled rfl]⟩
  · rename_i polled
    exact ⟨closed, by rw [← emitted, TxLocal.emitted, TxLocal.emitted, AsyncWrite.recording_unwritten polled rfl]⟩
  · rename_i n writer polled
    split
    · rename_i zero
      exact ⟨closed, by rw [← emitted, TxLocal.emitted, TxLocal.emitted, AsyncWrite.recording_unwritten polled zero]⟩
    · refine ⟨closed, ?_⟩
      rw [← emitted, TxLocal.emitted, TxLocal.emitted, AsyncWrite.recording_wrote polled, List.append_assoc,
        List.take_append_drop]

theorem Closing.turn_placed {frames : Bytes} {tx tx' : Tx (Recorded σ)} {closing closing' : Closing (Recorded σ)}
    (placed : Placed frames tx closing) (turned : closing.turn w.recording tx = some (tx', closing')) :
    Placed frames tx' closing' := by
  cases closing with
  | flushing =>
    have flushed := tx.pollFlush_emitted w
    have stays := tx.pollFlush_open w.recording
    have after : (tx.pollFlush w.recording).2.isOpen = true ∧ (tx.pollFlush w.recording).2.emitted = frames :=
      ⟨stays.trans placed.1, flushed.trans placed.2⟩
    simp only [turn] at turned
    split at turned <;> (rename_i polled; rw [polled] at after; cases turned; exact after)
  | flushed =>
    obtain ⟨error | this⟩ := tx
    · cases placed.1
    · cases turned
      exact ⟨rfl, placed.2⟩
  | writing this =>
    cases turned
    split
    · exact this.closeShutdown_placed placed.1 placed.2
    · exact this.closeWrite_placed placed.1 placed.2
  | shutting this =>
    cases turned
    exact this.closeShutdown_placed placed.1 placed.2
  | closed result => cases turned

namespace Kept

theorem start (state : σ) : Kept toVec (.new state : Clones σ) := ⟨⟨rfl, rfl⟩, nofun, nofun⟩

theorem turnCall {s : Clones σ} {i : Nat} {call : SendCall} (kept : Kept toVec s)
    (present : s.calls[i]? = some call) : Kept toVec (s.turnCall w test i call) := by
  obtain ⟨taken, split, emitted, after⟩ := (kept.credited.each i call present).turn w test s.tx
  have newly := take_given split
  constructor
  · simp only [Clones.turnCall, newly, List.map_append, List.map_map, Function.comp_def, List.map_id',
      framesOf_append]
    cases open_ : s.closing.taken with
    | true =>
      -- Nothing can be taken once the buffer is gone.
      obtain ⟨same, unchanged⟩ := call.future.turn_closed w.recording test (kept.placed.closed open_)
      have none : taken = [] := by
        rw [unchanged] at split
        simpa using split
      rw [same, none]
      simpa [framesOf] using kept.placed
    | false =>
      obtain ⟨isOpen, before⟩ := kept.placed.open open_
      apply Placed.of_open open_
      · exact (call.future.turn_open w.recording test s.tx).trans isOpen
      · rw [emitted, before]
  · simp only [Clones.turnCall, newly]
    exact kept.credited.extend present after

theorem writer {s : Clones σ} (kept : Kept toVec s) (state : σ) :
    Kept toVec { s with tx := Senders.disturbed state s.tx, closing := Clones.disturbed state s.closing } := by
  refine ⟨?_, kept.credited⟩
  obtain ⟨⟨error | tx⟩, closing, calls, order⟩ := s
  · have placed := kept.placed
    match closing, placed with
    | .writing _, placed | .shutting _, placed | .closed (.ok _), placed => exact placed
    | .closed (.error (.shutdown _)), placed => exact placed
  · have placed := kept.placed
    match closing, placed with
    | .flushing, placed | .flushed, placed | .closed (.error (.send _)), placed => exact placed

theorem step {s t : Clones σ} {label : CloneStep σ} (kept : Kept toVec s)
    (moved : s.step w test toVec debug label = some t) : Kept toVec t := by
  cases Clones.step_move moved with
  | request request => exact ⟨kept.placed, kept.credited.request debug request⟩
  | turn present _ => exact kept.turnCall present
  | drop present => exact ⟨kept.placed, kept.credited.drop present⟩
  | close turned => exact ⟨Closing.turn_placed kept.placed turned, kept.credited⟩
  | writer state => exact kept.writer state

theorem run {state : σ} {labels : List (CloneStep σ)} {s : Clones σ}
    (run : execute (Clones.step w test toVec debug) (.new state) labels = some s) : Kept toVec s :=
  invariant_execute (Kept toVec) (fun _ _ _ before moved => before.step moved) (.start state) run

end Kept

end

/-! ## Polls are turns -/

namespace Clones

variable {σ : Type} {w : AsyncWrite σ} {test : Bool} {toVec : Message → Except SerializeError Bytes}
  {debug : Message → String}

def of (s : Senders σ) : Clones σ := ⟨s.tx, .flushing, s.calls, s.order⟩

theorem turnCall_answered {s : Senders σ} {i : Nat} {call : SendCall} {polled : Polled} {tx : Tx (Recorded σ)}
    {future : DoSend} (turn : call.future.turn w.recording test s.tx = (some polled, tx, future)) :
    (of s).turnCall w test i call = of (s.pollCall w test i call) := by
  have poll := DoSend.poll_turn w.recording test s.tx call.future
  rw [turn] at poll
  simp only [turnCall, Senders.pollCall, of, turn, poll, Option.toList]

theorem turnCall_goesOn {s : Senders σ} {i : Nat} (call : SendCall) {left : List Sending} {flush : Bool}
    {tx : Tx (Recorded σ)} {taken : List Bytes} (inside : i < s.calls.length)
    (turn : call.future.turn w.recording test s.tx = (none, tx, ⟨.ok left, flush⟩))
    (split : call.future.untaken = taken ++ left.flatMap Sending.payloads) :
    ∃ u : Senders σ, (of s).turnCall w test i call = of u ∧
      u.calls[i]? = some { call with future := ⟨.ok left, flush⟩ } ∧
      u.pollCall w test i { call with future := ⟨.ok left, flush⟩ } = s.pollCall w test i call := by
  have poll := DoSend.poll_turn w.recording test s.tx call.future
  rw [turn] at poll
  obtain ⟨left', after, -, given, rest, -⟩ := DoSend.poll_transferred w test left flush tx
  have whole : call.future.untaken =
      (taken ++ given) ++ (DoSend.poll w.recording test tx ⟨.ok left, flush⟩).2.2.untaken := by
    rw [split, rest, DoSend.untaken, after, List.append_assoc]
  have later : (DoSend.mk (.ok left) flush).untaken =
      given ++ (DoSend.poll w.recording test tx ⟨.ok left, flush⟩).2.2.untaken := by
    rw [DoSend.untaken, DoSend.untaken, after, ← rest]
  refine ⟨⟨tx, s.calls.set i { call with future := ⟨.ok left, flush⟩ }, s.order ++ taken.map (i, ·)⟩, ?_, ?_, ?_⟩
  · have now : call.future.untaken.take (call.future.untaken.length -
        (DoSend.mk (.ok left) flush).untaken.length) = taken := take_given split
    simp only [turnCall, of, turn, now, Option.toList, List.append_nil]
  · exact List.getElem?_set_self inside
  · simp only [Senders.pollCall, poll, take_given whole, take_given later, List.set_set, List.map_append,
      List.append_assoc]

theorem step_turn {s : Clones σ} {i : Nat} {call : SendCall} (present : s.calls[i]? = some call)
    (awaited : call.dropped = false) :
    s.step w test toVec debug (.turn i) = some (s.turnCall w test i call) := by
  simp only [step, present, awaited, Bool.false_eq_true, if_false]

/-- A poll is its turns with nobody coming in between. -/
theorem pollCall_turns {s : Senders σ} {i : Nat} {call : SendCall} (present : s.calls[i]? = some call)
    (awaited : call.dropped = false) :
    Reaches (step w test toVec debug) (of s) (of (s.pollCall w test i call)) := by
  have one {s : Senders σ} {call : SendCall} {polled : Polled} {tx : Tx (Recorded σ)} {future : DoSend}
      (present : s.calls[i]? = some call) (awaited : call.dropped = false)
      (turn : call.future.turn w.recording test s.tx = (some polled, tx, future)) :
      Reaches (step w test toVec debug) (of s) (of (s.pollCall w test i call)) := by
    rw [← turnCall_answered turn]
    exact Reaches.after (step_turn present awaited) (.refl _ _)
  obtain ⟨own, ⟨error | msgs, flush⟩, polls, dropped⟩ := call
  · exact one present awaited rfl
  · induction msgs generalizing s with
    | nil => cases flush <;> exact one present awaited rfl
    | cons msg msgs ih =>
      have turned := (DoSend.mk (.ok (msg :: msgs)) flush).turn_turned w.recording test s.tx
      obtain ⟨left, same, -, -, taken, split, -⟩ :=
        DoSend.turn_transferred w test (msg :: msgs) flush s.tx
      generalize turn : DoSend.turn w.recording test s.tx ⟨.ok (msg :: msgs), flush⟩ = result at same turned
      cases turned with
      | stopped sent failed => exact one present awaited turn
      | @sent _ _ _ tx' sent =>
        cases same
        obtain ⟨u, onward, present', rest⟩ :=
          turnCall_goesOn ⟨own, ⟨.ok (msg :: msgs), flush⟩, polls, dropped⟩
            (List.getElem?_eq_some_iff.mp present).1 turn split
        apply Reaches.after (step_turn present awaited)
        rw [onward, ← rest]
        exact ih present' awaited

/-- Whatever the senders do, clones taking turns can do. -/
theorem of_senders {s t : Senders σ} {labels : List (SendStep σ)}
    (run : execute (Senders.step w test toVec debug) s labels = some t) :
    Reaches (step w test toVec debug) (of s) (of t) := by
  induction labels generalizing s with
  | nil =>
    cases run
    exact .refl _ _
  | cons label labels ih =>
    obtain ⟨u, moved, rest⟩ := execute_cons.mp run
    refine Reaches.trans ?_ (ih rest)
    cases label with
    | request request =>
      cases moved
      exact Reaches.after (l := .request request) rfl (.refl _ _)
    | poll i =>
      simp only [Senders.step] at moved
      split at moved
      · rename_i call present
        split at moved
        · cases moved
        · rename_i awaited
          cases moved
          exact pollCall_turns present (Bool.eq_false_iff.mpr awaited)
      · cases moved
    | drop i =>
      simp only [Senders.step] at moved
      split at moved
      · rename_i call present
        cases moved
        refine Reaches.after (l := .drop i) ?_ (.refl _ _)
        simp only [step, of, present]
      · cases moved
    | writer state =>
      cases moved
      exact Reaches.after (l := .writer state) rfl (.refl _ _)

end Clones

end MinimalVm.Io
