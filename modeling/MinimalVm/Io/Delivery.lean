import MinimalVm.Io.Clones

/-! What a completed flush says.

A flush is complete when the buffer is empty and the writer says that it has
flushed. The buffer is everybody's, so a completed flush of one future delivers
what all of them had enqueued.
-/

set_option autoImplicit false

namespace MinimalVm.Io

open MinimalVm.Semantics MinimalVm.Protocol MinimalVm.Text

section
variable {σ : Type} (w : AsyncWrite σ) (test : Bool)

theorem TxLocal.pollTransmit_completed (this : TxLocal σ)
    (completed : (pollTransmit w this).1 = .ready (.ok ())) : (pollTransmit w this).2.transmitting = [] := by
  fun_induction pollTransmit w this with
  | case1 this empty => exact empty
  | case2 this nonempty writer polled => cases completed
  | case3 this nonempty error writer polled => cases completed
  | case4 this nonempty n writer polled zero => cases completed
  | case5 this nonempty n writer polled positive ih => exact ih completed

theorem TxLocal.pollFlush_completed (this : TxLocal σ) (completed : (pollFlush w this).1 = .ready (.ok ())) :
    (pollTransmit w this).1 = .ready (.ok ()) ∧
      (w.pollFlush (pollTransmit w this).2.writer).1 = .ready (.ok ()) := by
  unfold pollFlush at completed
  dsimp only at completed
  split at completed
  · rename_i transmitted flushed
    exact ⟨transmitted, flushed⟩
  · cases completed
  · cases completed
  · cases completed
  · cases completed

/-- The writer has accepted every frame and then said that it has flushed. -/
structure DeliveredAll (w : AsyncWrite σ) (frames : Bytes) (this : TxLocal (Recorded σ)) : Prop where
  nothing : this.transmitting = []
  accepted : this.writer.accepted = frames
  flushed : ∃ before : Recorded σ, before.accepted = frames ∧
    w.recording.pollFlush before = (.ready (.ok ()), this.writer)

theorem TxLocal.pollFlush_delivered (this : TxLocal (Recorded σ))
    (completed : (pollFlush w.recording this).1 = .ready (.ok ())) :
    DeliveredAll w this.emitted (pollFlush w.recording this).2 := by
  obtain ⟨transmitted, flushed⟩ := this.pollFlush_completed w.recording completed
  have nothing := this.pollTransmit_completed w.recording transmitted
  have all : (pollTransmit w.recording this).2.writer.accepted = this.emitted := by
    rw [← this.pollTransmit_emitted w, emitted, nothing, List.append_nil]
  rw [this.pollFlush_eq w.recording]
  constructor
  · exact nothing
  · exact all
  · exact ⟨_, all, Prod.ext flushed rfl⟩

theorem DoSend.turn_flushed {this : DoSend} {tx : Tx (Recorded σ)} (flushes : this.flush = true)
    (answered : (this.turn w.recording test tx).1 = some (.answered (.ready (.ok ())))) :
    ∃ opened, tx.shared = .ok opened ∧ this.msgs = .ok [] ∧
      (this.turn w.recording test tx).2.1.shared = .ok (opened.pollFlush w.recording).2 ∧
      (opened.pollFlush w.recording).1 = .ready (.ok ()) := by
  have turned := this.turn_turned w.recording test tx
  generalize this.turn w.recording test tx = result at turned answered
  cases turned with
  | refused => cases answered
  | stopped polled failed =>
    cases answered
    exact absurd rfl failed
  | sent polled => cases answered
  | flushed polled =>
    cases answered
    obtain ⟨error | opened⟩ := tx
    · cases polled
    · have outcome : (opened.pollFlush w.recording).1 = .ready (.ok ()) := congrArg Prod.fst polled
      have left : Tx.mk (.ok (opened.pollFlush w.recording).2) = _ := congrArg Prod.snd polled
      exact ⟨opened, rfl, rfl, congrArg Tx.shared left.symm, outcome⟩
  | finished => cases flushes

end

section
variable {σ : Type} {w : AsyncWrite σ} {test : Bool} {toVec : Message → Except SerializeError Bytes}
  {debug : Message → String}

theorem Kept.flushed {s : Clones σ} (kept : Kept toVec s) {i : Nat} {call : SendCall}
    (present : s.calls[i]? = some call) (flushes : call.future.flush = true)
    (answered : (call.future.turn w.recording test s.tx).1 = some (.answered (.ready (.ok ())))) :
    (∃ tx, (s.turnCall w test i call).tx.shared = .ok tx ∧
      DeliveredAll w (framesOf ((s.turnCall w test i call).order.map Prod.snd)) tx) ∧
      call.msgs.map toVec = (contributed (s.turnCall w test i call).order i).map .ok := by
  have after : Kept toVec (s.turnCall w test i call) := kept.turnCall present
  obtain ⟨opened, shared, nothing, left, completed⟩ := DoSend.turn_flushed w test flushes answered
  have still : (s.turnCall w test i call).tx.shared = .ok (opened.pollFlush w.recording).2 := left
  have untaken : s.closing.taken = false := by
    cases taken : s.closing.taken with
    | true => cases shared.symm.trans (kept.placed.closed taken)
    | false => rfl
  constructor
  · refine ⟨_, still, ?_⟩
    have emitted := (after.placed.open untaken).2
    have same : opened.emitted = framesOf ((s.turnCall w test i call).order.map Prod.snd) := by
      rw [← emitted, Tx.emitted, still]
      exact (opened.pollFlush_emitted w).symm
    rw [← same]
    exact opened.pollFlush_delivered w completed
  · have own := after.credited.each i _ (Clones.turnCall_found w test present)
    apply own.finished
    rw [answered]
    exact List.mem_append_right _ (List.mem_singleton_self _)

end

/-- In a step in which a flushing future resolves with success the buffer is
empty: the writer accepted every frame enqueued until then, those of the future
among them, and reported its own flush after the last of them. -/
theorem flush_means_delivered {σ : Type} (w : AsyncWrite σ) (test : Bool)
    (toVec : Message → Except SerializeError Bytes) (debug : Message → String) (state : σ)
    (labels : List (CloneStep σ)) (s t : Clones σ) (i : Nat) (call call' : SendCall)
    (run : execute (Clones.step w test toVec debug) (.new state) labels = some s)
    (moved : s.step w test toVec debug (.turn i) = some t)
    (present : s.calls[i]? = some call) (flushes : call.future.flush = true)
    (found : t.calls[i]? = some call')
    (resolved : call'.polls = call.polls ++ [.answered (.ready (.ok ()))]) :
    ∃ tx, t.tx.shared = .ok tx ∧ tx.transmitting = [] ∧
      tx.writer.accepted = framesOf (t.order.map Prod.snd) ∧
      (∃ before : Recorded σ, before.accepted = framesOf (t.order.map Prod.snd) ∧
        w.recording.pollFlush before = (.ready (.ok ()), tx.writer)) ∧
      call.msgs.map toVec = (contributed t.order i).map .ok := by
  cases Clones.step_move moved with
  | @turn i call₀ known _ =>
    cases present.symm.trans known
    have same : call'.polls = call.polls ++ (call.future.turn w.recording test s.tx).1.toList :=
      congrArg SendCall.polls (Option.some.inj (found.symm.trans (Clones.turnCall_found w test present)))
    have answered : (call.future.turn w.recording test s.tx).1 = some (.answered (.ready (.ok ()))) := by
      have once := List.append_cancel_left (same.symm.trans resolved)
      cases turned : (call.future.turn w.recording test s.tx).1 with
      | none => rw [turned] at once; cases once
      | some polled => rw [turned] at once; cases once; rfl
    obtain ⟨⟨tx, shared, delivered⟩, whole⟩ := (Kept.run run).flushed present flushes answered
    exact ⟨tx, shared, delivered.nothing, delivered.accepted, delivered.flushed, whole⟩

/-- A message sent by one future waits in the buffer until another one flushes. -/
theorem flush_means_delivered_kill :
    ∃ t : Clones (List (Poll (Except IoError Nat))), ∃ tx, t.tx.shared = .ok tx ∧ tx.transmitting = [] ∧
      t.order.map Prod.snd = [Message.text (.kill ⟨9⟩)] ∧
      tx.writer.accepted = framesOf (t.order.map Prod.snd) := by
  let script : List (Poll (Except IoError Nat)) := [.pending, .ready (.ok 3), .ready (.ok 100)]
  let labels : List (CloneStep (List (Poll (Except IoError Nat)))) :=
    [.request (.send [.kill ⟨9⟩]), .request .flush, .turn 0, .turn 0]
  have completes : ((execute (Clones.step scripted false messageText (fun _ => "")) (.new script) labels).bind
      fun s => s.calls[1]?.map fun call => (call.dropped, call.future.flush,
        (call.future.turn scripted.recording false s.tx).1.map Polled.succeeded, (s.turnCall scripted false 1 call).order.map Prod.snd)) =
      some (false, true, some true, [Message.text (.kill ⟨9⟩)]) := by decide +kernel
  obtain ⟨s, run, completes⟩ := Option.bind_eq_some_iff.mp completes
  obtain ⟨call, present, reached⟩ := Option.map_eq_some_iff.mp completes
  simp only [Prod.mk.injEq] at reached
  obtain ⟨awaited, flushes, succeeded, order⟩ := reached
  have answered := Polled.of_succeeded succeeded
  have moved : s.step scripted false messageText (fun _ => "") (.turn 1) = some (s.turnCall scripted false 1 call) :=
    Clones.step_turn present awaited
  obtain ⟨tx, shared, nothing, accepted, -⟩ := flush_means_delivered scripted false messageText (fun _ => "") script
    labels s _ 1 call _ run moved present flushes (Clones.turnCall_found scripted false present) (by rw [answered]; rfl)
  exact ⟨_, tx, shared, nothing, order, accepted⟩

end MinimalVm.Io
