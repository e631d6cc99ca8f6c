import MinimalVm.Io.Closing

/-! Who holds a sending end, and what becomes of it when nobody does.

Every clone and every future keeps the shared end alive. Any clone may close it,
and any of them may be dropped, also while it is closing. When the last is gone
and the connection has not been taken out by one that closes, it is closed in
the background.
-/

set_option autoImplicit false

namespace MinimalVm.Io

open MinimalVm.Semantics MinimalVm.Protocol MinimalVm.Text

/-! ## Clones and futures -/

def Closing.over {σ : Type} : Closing σ → Bool
  | .closed _ => true
  | .flushing | .flushed | .writing _ | .shutting _ => false

/-- A clone, how far it has come if it closes, and whether it is gone. -/
structure Holder (σ : Type) where
  closing : Option (Closing (Recorded σ))
  dropped : Bool

def Holder.owns {σ : Type} (this : Holder σ) : List (Closing (Recorded σ)) :=
  this.closing.toList.filter Closing.taken

structure Handles (σ : Type) where
  tx : Tx (Recorded σ)
  holders : List (Holder σ)
  calls : List SendCall
  order : List (Nat × Bytes)
  background : Option (Closing (Recorded σ))

/-- A step of a clone, of a future or of the task in the background, or a move of
whatever the writer writes to. -/
inductive HandlesStep (σ : Type) where
  | clone (holder : Nat)
  | request (holder : Nat) (request : SendRequest)
  | turn (call : Nat)
  | drop (call : Nat)
  | close (holder : Nat)
  | closeTurn (holder : Nat)
  | abandon (holder : Nat)
  | background
  | writer (state : σ)

namespace Handles

variable {σ : Type} (w : AsyncWrite σ) (test : Bool) (toVec : Message → Except SerializeError Bytes)
  (debug : Message → String)

def new (state : σ) : Handles σ := ⟨.new ⟨state, []⟩, [⟨none, false⟩], [], [], none⟩

def held (this : Handles σ) : Bool :=
  this.holders.any (fun holder => !holder.dropped) || this.calls.any fun call => !call.dropped

/-- The connection, wherever it has been taken out to. -/
def owners (this : Handles σ) : List (Closing (Recorded σ)) :=
  this.holders.flatMap Holder.owns ++ this.background.toList

def clones (this : Handles σ) (closing : Closing (Recorded σ)) : Clones σ :=
  ⟨this.tx, closing, this.calls, this.order⟩

def idle (this : Handles σ) (i : Nat) : Bool :=
  match this.holders[i]? with
  | some ⟨none, false⟩ => true
  | _ => false

/-- After a drop. Nobody is left to see the error that takes the place of the
connection. -/
def release (this : Handles σ) : Handles σ :=
  if this.held then this
  else
    match this.tx.shared with
    | .ok tx => { this with tx := ⟨.error .closed⟩, background := some (.writing tx) }
    | .error _ => this

def disturb (this : Handles σ) (state : σ) : Handles σ :=
  { this with
    tx := Senders.disturbed state this.tx
    holders := this.holders.map fun holder => { holder with closing := holder.closing.map (Clones.disturbed state) }
    background := this.background.map (Clones.disturbed state) }

def step (this : Handles σ) : HandlesStep σ → Option (Handles σ)
  | .clone i => if this.idle i then some { this with holders := this.holders ++ [⟨none, false⟩] } else none
  | .request i request =>
    if this.idle i then
      some { this with calls := this.calls ++ [⟨request.msgs, request.future toVec debug, [], false⟩] }
    else none
  | .turn i =>
    match this.calls[i]? with
    | some call =>
      let turned := (this.clones .flushing).turnCall w test i call
      if call.dropped then none
      else some { this with tx := turned.tx, calls := turned.calls, order := turned.order }
    | none => none
  | .drop i =>
    match this.calls[i]? with
    | some call =>
      if call.dropped then none
      else some (release { this with calls := this.calls.set i { call with dropped := true } })
    | none => none
  | .close i =>
    if this.idle i then some { this with holders := this.holders.set i ⟨some .flushing, false⟩ } else none
  | .closeTurn i =>
    match this.holders[i]? with
    | some ⟨some closing, false⟩ =>
      (closing.turn w.recording this.tx).map fun (tx, closing) =>
        release { this with tx, holders := this.holders.set i ⟨some closing, closing.over⟩ }
    | _ => none
  | .abandon i =>
    match this.holders[i]? with
    | some ⟨closing, false⟩ => some (release { this with holders := this.holders.set i ⟨closing, true⟩ })
    | _ => none
  | .background =>
    match this.background with
    | some closing =>
      (closing.turn w.recording this.tx).map fun (tx, closing) => { this with tx, background := some closing }
    | none => none
  | .writer state => some (this.disturb state)

end Handles

/-! ## One owner -/

section
variable {α β : Type} {f : α → List β}

theorem flatMap_set {l : List α} {i : Nat} {x : α} (present : l[i]? = some x) :
    ∃ first rest, l.flatMap f = first ++ f x ++ rest ∧ ∀ y, (l.set i y).flatMap f = first ++ f y ++ rest := by
  obtain ⟨inside, rfl⟩ := List.getElem?_eq_some_iff.mp present
  refine ⟨(l.take i).flatMap f, (l.drop (i + 1)).flatMap f, ?_, fun y => ?_⟩
  · have split : l = l.take i ++ l[i] :: l.drop (i + 1) := by
      rw [← List.drop_eq_getElem_cons inside, List.take_append_drop]
    calc l.flatMap f = (l.take i ++ l[i] :: l.drop (i + 1)).flatMap f := congrArg (List.flatMap f) split
      _ = _ := by rw [List.flatMap_append, List.flatMap_cons, List.append_assoc]
  · rw [List.set_eq_take_append_cons_drop, if_pos inside, List.flatMap_append, List.flatMap_cons, List.append_assoc]

theorem flatMap_set_none {l : List α} {i : Nat} {x : α} {more : List β} (present : l[i]? = some x)
    (none : l.flatMap f ++ more = []) : f x = [] ∧ more = [] ∧ ∀ y, (l.set i y).flatMap f ++ more = f y := by
  obtain ⟨first, rest, whole, after⟩ := flatMap_set (f := f) present
  rw [whole] at none
  simp only [List.append_eq_nil_iff] at none
  obtain ⟨⟨⟨rfl, nothing⟩, rfl⟩, rfl⟩ := none
  exact ⟨nothing, rfl, fun y => by simp [after y]⟩

theorem flatMap_set_other {l : List α} {i : Nat} {x : α} (present : l[i]? = some x) (nothing : f x = []) {y : α}
    (still : f y = []) : (l.set i y).flatMap f = l.flatMap f := by
  obtain ⟨first, rest, whole, after⟩ := flatMap_set (f := f) present
  rw [whole, after y, nothing, still]

theorem flatMap_set_only {l : List α} {i : Nat} {x : α} {b c : β} {more : List β} (present : l[i]? = some x)
    (own : f x = [b]) (only : l.flatMap f ++ more = [c]) :
    b = c ∧ more = [] ∧ ∀ y, (l.set i y).flatMap f ++ more = f y := by
  obtain ⟨first, rest, whole, after⟩ := flatMap_set (f := f) present
  rw [whole, own] at only
  have count := congrArg List.length only
  simp only [List.length_append, List.length_singleton] at count
  obtain rfl : first = [] := List.length_eq_zero_iff.mp (by omega)
  obtain rfl : rest = [] := List.length_eq_zero_iff.mp (by omega)
  obtain rfl : more = [] := List.length_eq_zero_iff.mp (by omega)
  exact ⟨(List.cons.inj only).1, rfl, fun y => by simp [after y]⟩

end

section
variable {σ : Type} {w : AsyncWrite σ} {test : Bool} {toVec : Message → Except SerializeError Bytes}
  {debug : Message → String}

theorem Holder.owns_taken {closing : Closing (Recorded σ)} (taken : closing.taken = true) (dropped : Bool) :
    (Holder.mk (some closing) dropped).owns = [closing] := by
  simp [owns, taken]

theorem Holder.owns_untaken {closing : Closing (Recorded σ)} (untaken : closing.taken = false) (dropped : Bool) :
    (Holder.mk (some closing) dropped).owns = [] := by
  simp [owns, untaken]

/-- A connection that was taken out is gone for everybody else who closes. -/
theorem Closing.turn_late {tx tx' : Tx σ} {closing closing' : Closing σ} (late : tx.shared = .error .closed)
    (untaken : closing.taken = false) (turned : closing.turn w tx = some (tx', closing')) :
    tx' = tx ∧ closing'.taken = false := by
  obtain ⟨shared⟩ := tx
  cases late
  match closing, untaken with
  | .flushing, _ | .flushed, _ =>
    cases turned
    exact ⟨rfl, rfl⟩
  | .closed (.error (.send _)), _ => cases turned

inductive Owned (toVec : Message → Except SerializeError Bytes) (s : Handles σ) : Prop
  | shared : Kept toVec (s.clones .flushing) → s.owners = [] → Owned toVec s
  | taken {closing : Closing (Recorded σ)} : Kept toVec (s.clones closing) → closing.taken = true →
      s.owners = [closing] → (s.background.isSome = true → s.held = false) → Owned toVec s

structure Held (toVec : Message → Except SerializeError Bytes) (s : Handles σ) : Prop where
  owned : Owned toVec s
  alive : s.owners = [] → s.held = true

namespace Handles

theorem held_holder {s : Handles σ} {i : Nat} {holder : Holder σ} (present : s.holders[i]? = some holder)
    (alive : holder.dropped = false) : s.held = true := by
  have some : s.holders.any (fun holder => !holder.dropped) = true :=
    List.any_eq_true.mpr ⟨holder, List.mem_of_getElem? present, by rw [alive]; rfl⟩
  rw [held, some, Bool.true_or]

theorem held_call {s : Handles σ} {i : Nat} {call : SendCall} (present : s.calls[i]? = some call)
    (alive : call.dropped = false) : s.held = true := by
  have some : s.calls.any (fun call => !call.dropped) = true :=
    List.any_eq_true.mpr ⟨call, List.mem_of_getElem? present, by rw [alive]; rfl⟩
  rw [held, some, Bool.or_true]

theorem idle_holder {s : Handles σ} {i : Nat} (idle : s.idle i = true) : s.holders[i]? = some ⟨none, false⟩ := by
  unfold Handles.idle at idle
  split at idle
  · assumption
  · cases idle

theorem release_late {s : Handles σ} {error : SendError} (late : s.tx.shared = .error error) : s.release = s := by
  unfold release
  split
  · rfl
  · rw [late]

end Handles

theorem Owned.release {s : Handles σ} (owned : Owned toVec s) : Held toVec s.release := by
  cases owned with
  | taken kept taken one last =>
    rw [Handles.release_late (kept.placed.closed taken)]
    exact ⟨.taken kept taken one last, fun none => by rw [one] at none; cases none⟩
  | shared kept none =>
    by_cases held : s.held = true
    · rw [Handles.release, if_pos held]
      exact ⟨.shared kept none, fun _ => held⟩
    · obtain ⟨⟨error | tx⟩, holders, calls, order, background⟩ := s
      · cases kept.placed.1
      · have empty : holders.flatMap Holder.owns = [] := (List.append_eq_nil_iff.mp none).1
        rw [Handles.release, if_neg held]
        let taken : Handles σ := ⟨⟨.error .closed⟩, holders, calls, order, some (.writing tx)⟩
        have moved : Kept toVec (taken.clones (.writing tx)) := ⟨⟨rfl, kept.placed.2⟩, kept.credited⟩
        refine ⟨.taken moved rfl ?_ fun _ => ?_, fun nobody => ?_⟩
        · show holders.flatMap Holder.owns ++ [_] = _
          rw [empty, List.nil_append]
        · exact Bool.eq_false_iff.mpr held
        · exact absurd (List.append_eq_nil_iff.mp nobody).2 (List.cons_ne_nil _ _)

theorem Owned.closeTurn {s : Handles σ} {i : Nat} {closing closing' : Closing (Recorded σ)} {tx : Tx (Recorded σ)}
    (owned : Owned toVec s) (present : s.holders[i]? = some ⟨some closing, false⟩)
    (turned : closing.turn w.recording s.tx = some (tx, closing')) :
    Owned toVec { s with tx, holders := s.holders.set i ⟨some closing', closing'.over⟩ } := by
  have alive : s.held = true := s.held_holder present rfl
  cases owned with
  -- Nobody has taken the connection out yet, so this turn may be the one that does.
  | shared kept none =>
    obtain ⟨nothing, nobody, owners⟩ := flatMap_set_none present none
    have untaken : closing.taken = false := by
      cases taken : closing.taken with
      | false => rfl
      | true => cases (Holder.owns_taken taken false).symm.trans nothing
    have placed := Closing.turn_placed (.of_open untaken kept.placed.1 kept.placed.2) turned
    cases taken : closing'.taken with
    | false =>
      obtain ⟨isOpen, emitted⟩ := placed.open taken
      exact .shared ⟨⟨isOpen, emitted⟩, kept.credited⟩ ((owners _).trans (Holder.owns_untaken taken _))
    | true =>
      refine .taken ⟨placed, kept.credited⟩ taken ((owners _).trans (Holder.owns_taken taken _)) fun background => ?_
      rw [Option.toList_eq_nil_iff.mp nobody] at background
      cases background
  | @taken owner kept taken one last =>
    have late := kept.placed.closed taken
    have nobody : s.background = none := by
      cases background : s.background with
      | none => rfl
      | some closing => rw [last (by rw [background]; rfl)] at alive; cases alive
    cases own : closing.taken with
    | true =>
      obtain ⟨rfl, -, owners⟩ := flatMap_set_only present (Holder.owns_taken own false) one
      have still := Closing.turn_taken own turned
      exact .taken ⟨Closing.turn_placed kept.placed turned, kept.credited⟩ still
        ((owners _).trans (Holder.owns_taken still _)) fun background => by rw [nobody] at background; cases background
    -- Somebody else has taken the connection out, and this clone finds it gone.
    | false =>
      obtain ⟨rfl, untaken⟩ := Closing.turn_late late own turned
      have owners := flatMap_set_other present (Holder.owns_untaken own false) (Holder.owns_untaken untaken closing'.over)
      refine .taken kept taken ?_ fun background => by rw [nobody] at background; cases background
      exact (congrArg (· ++ s.background.toList) owners).trans one

theorem Held.of_owned {s : Handles σ} (owned : Owned toVec s) (alive : s.held = true) : Held toVec s :=
  ⟨owned, fun _ => alive⟩

theorem Owned.nobody {s : Handles σ} (owned : Owned toVec s) (alive : s.held = true) : s.background = none := by
  cases owned with
  | shared kept none => exact Option.toList_eq_nil_iff.mp (List.append_eq_nil_iff.mp none).2
  | taken kept taken one last =>
    cases background : s.background with
    | none => rfl
    | some closing => rw [last (by rw [background]; rfl)] at alive; cases alive

theorem Owned.keeps {s t : Handles σ} (owned : Owned toVec s) (alive : s.held = true)
    (kept : ∀ closing, Kept toVec (s.clones closing) → Kept toVec (t.clones closing)) (owners : t.owners = s.owners)
    (background : t.background = s.background) : Owned toVec t := by
  have nobody := owned.nobody alive
  cases owned with
  | shared before none => exact .shared (kept _ before) (owners.trans none)
  | taken before taken one last =>
    refine .taken (kept _ before) taken (owners.trans one) fun works => ?_
    rw [background, nobody] at works
    cases works

theorem Holder.disturbed_owns (state : σ) (holder : Holder σ) :
    (Holder.mk (holder.closing.map (Clones.disturbed state)) holder.dropped).owns =
      holder.owns.map (Clones.disturbed state) := by
  obtain ⟨_ | closing, dropped⟩ := holder
  · rfl
  · have same := Clones.disturbed_taken state closing
    cases taken : closing.taken with
    | true =>
      rw [owns_taken taken]
      exact owns_taken (same.trans taken) dropped
    | false =>
      rw [owns_untaken taken]
      exact owns_untaken (same.trans taken) dropped

theorem Handles.background_owns {s : Handles σ} {closing owner : Closing (Recorded σ)}
    (works : s.background = some closing) (one : s.owners = [owner]) :
    s.holders.flatMap Holder.owns = [] ∧ closing = owner := by
  rw [owners, works, Option.toList_some] at one
  have count := congrArg List.length one
  simp only [List.length_append, List.length_singleton] at count
  have empty : s.holders.flatMap Holder.owns = [] := List.length_eq_zero_iff.mp (by omega)
  rw [empty] at one
  exact ⟨empty, (List.cons.inj one).1⟩

theorem Owned.background {s : Handles σ} {closing closing' : Closing (Recorded σ)} {tx : Tx (Recorded σ)}
    (owned : Owned toVec s) (works : s.background = some closing)
    (turned : closing.turn w.recording s.tx = some (tx, closing')) :
    Owned toVec { s with tx, background := some closing' } := by
  cases owned with
  | shared kept none =>
    have nobody := (List.append_eq_nil_iff.mp none).2
    rw [works] at nobody
    cases nobody
  | taken kept taken one last =>
    obtain ⟨empty, rfl⟩ := s.background_owns works one
    refine .taken ⟨Closing.turn_placed kept.placed turned, kept.credited⟩ (Closing.turn_taken taken turned) ?_ fun _ => ?_
    · show s.holders.flatMap Holder.owns ++ [closing'] = _
      rw [empty, List.nil_append]
    · exact last (by rw [works]; rfl)

theorem Handles.disturb_owners (s : Handles σ) (state : σ) :
    (s.disturb state).owners = s.owners.map (Clones.disturbed state) := by
  simp only [disturb, owners, List.map_append, List.map_flatMap, List.flatMap_map, Holder.disturbed_owns,
    Option.toList_map]

theorem Handles.disturb_held (s : Handles σ) (state : σ) : (s.disturb state).held = s.held := by
  simp only [disturb, held, List.any_map]
  rfl

theorem Held.writer {s : Handles σ} (before : Held toVec s) (state : σ) : Held toVec (s.disturb state) := by
  have owners := s.disturb_owners state
  have held := s.disturb_held state
  constructor
  · cases before.owned with
    | shared kept none => exact .shared (kept.writer state) (owners.trans (by rw [none]; rfl))
    | @taken closing kept taken one last =>
      refine .taken (kept.writer state) ((Clones.disturbed_taken state closing).trans taken)
        (owners.trans (by rw [one]; rfl)) fun works => ?_
      exact held.trans (last ((Option.isSome_map (x := s.background)).symm.trans works))
  · intro none
    rw [owners, List.map_eq_nil_iff] at none
    exact held.trans (before.alive none)

theorem Held.step {s t : Handles σ} {label : HandlesStep σ} (before : Held toVec s)
    (moved : s.step w test toVec debug label = some t) : Held toVec t := by
  have owned := before.owned
  cases label with
  | clone i =>
    simp only [Handles.step] at moved
    split at moved <;> cases moved
    rename_i idle
    have alive := s.held_holder (s.idle_holder idle) rfl
    refine .of_owned (owned.keeps alive (fun _ kept => kept) ?_ rfl) ?_
    · simp [Handles.owners, Holder.owns]
    · simp [Handles.held]
  | request i request =>
    simp only [Handles.step] at moved
    split at moved <;> cases moved
    rename_i idle
    have alive := s.held_holder (s.idle_holder idle) rfl
    refine .of_owned (owned.keeps alive (fun _ kept => ⟨kept.placed, kept.credited.request debug request⟩) rfl rfl) ?_
    simp [Handles.held]
  | turn i =>
    simp only [Handles.step] at moved
    split at moved
    · rename_i call present
      split at moved <;> cases moved
      rename_i awaited
      have alive := s.held_call present (Bool.eq_false_iff.mpr awaited)
      have found := (s.clones .flushing).turnCall_found w test present
      refine .of_owned (owned.keeps alive (fun _ kept => kept.turnCall present) rfl rfl) ?_
      exact Handles.held_call found (Bool.eq_false_iff.mpr awaited)
    · cases moved
  | drop i =>
    simp only [Handles.step] at moved
    split at moved
    · rename_i call present
      split at moved <;> cases moved
      rename_i awaited
      have alive := s.held_call present (Bool.eq_false_iff.mpr awaited)
      have kept : Owned toVec { s with calls := s.calls.set i { call with dropped := true } } :=
        owned.keeps alive (fun _ kept => ⟨kept.placed, kept.credited.drop present⟩) rfl rfl
      -- The future that is dropped may have been the last holder.
      exact kept.release
    · cases moved
  | close i =>
    simp only [Handles.step] at moved
    split at moved <;> cases moved
    rename_i idle
    have present := s.idle_holder idle
    have alive := s.held_holder present rfl
    have owners : (s.holders.set i ⟨some .flushing, false⟩).flatMap Holder.owns = s.holders.flatMap Holder.owns :=
      flatMap_set_other present rfl rfl
    refine .of_owned (owned.keeps alive (fun _ kept => kept) (congrArg (· ++ s.background.toList) owners) rfl) ?_
    have inside := (List.getElem?_eq_some_iff.mp present).1
    exact Handles.held_holder (List.getElem?_set_self inside) rfl
  | closeTurn i =>
    simp only [Handles.step] at moved
    split at moved
    · rename_i closing present
      obtain ⟨⟨tx, closing'⟩, turned, rfl⟩ := Option.map_eq_some_iff.mp moved
      -- A clone that is done with closing goes, and may have been the last holder.
      exact (owned.closeTurn present turned).release
    · cases moved
  | abandon i =>
    simp only [Handles.step] at moved
    split at moved
    · rename_i closing present
      cases moved
      have alive := s.held_holder present rfl
      have owners : (s.holders.set i ⟨closing, true⟩).flatMap Holder.owns = s.holders.flatMap Holder.owns := by
        obtain ⟨first, rest, whole, after⟩ := flatMap_set (f := Holder.owns) present
        rw [after, whole]
        rfl
      have kept : Owned toVec { s with holders := s.holders.set i ⟨closing, true⟩ } :=
        owned.keeps alive (fun _ kept => kept) (congrArg (· ++ s.background.toList) owners) rfl
      exact kept.release
    · cases moved
  | background =>
    simp only [Handles.step] at moved
    split at moved
    · rename_i closing works
      obtain ⟨⟨tx, closing'⟩, turned, rfl⟩ := Option.map_eq_some_iff.mp moved
      -- The background works on, so there is an owner.
      refine ⟨owned.background works turned, fun none => ?_⟩
      exact absurd (List.append_eq_nil_iff.mp none).2 (List.cons_ne_nil _ _)
    · cases moved
  | writer state =>
    cases moved
    exact before.writer state

theorem Held.start (state : σ) : Held toVec (.new state : Handles σ) := .of_owned (.shared (Kept.start state) rfl) rfl

theorem Held.run {state : σ} {labels : List (HandlesStep σ)} {s : Handles σ}
    (run : execute (Handles.step w test toVec debug) (.new state) labels = some s) : Held toVec s :=
  invariant_execute (Held toVec) (fun _ _ _ before moved => before.step moved) (.start state) run

/-! ## In the background -/

/-- No write made in the background is turned down. -/
def BackgroundAccepts (w : AsyncWrite σ) (s : Handles σ) : HandlesStep σ → Prop
  | .background => ∀ this, s.background = some (.writing this) → this.transmitting ≠ [] →
      turnsDown (w.recording.pollWrite this.writer this.transmitting).1 = false
  | .clone _ | .request _ _ | .turn _ | .drop _ | .close _ | .closeTurn _ | .abandon _ | .writer _ => True

def Handles.frames (s : Handles σ) : Bytes := framesOf (s.order.map Prod.snd)

inductive Alone (w : AsyncWrite σ) (test : Bool) (toVec : Message → Except SerializeError Bytes)
    (debug : Message → String) (s : Handles σ) (label : HandlesStep σ) (t : Handles σ) : Prop
  | moves {closing closing' : Closing (Recorded σ)} (own : CloneStep σ) : Kept toVec (s.clones closing) →
      s.background = some closing → t.background = some closing' →
      (s.clones closing).step w test toVec debug own = some (t.clones closing') →
      (BackgroundAccepts w s label ↔ CloseAccepts w (s.clones closing) own) → Alone w test toVec debug s label t

theorem Held.nobody {s : Handles σ} (before : Held toVec s) {closing : Closing (Recorded σ)}
    (works : s.background = some closing) : Kept toVec (s.clones closing) ∧ s.held = false := by
  cases before.owned with
  | shared kept none =>
    have nobody := (List.append_eq_nil_iff.mp none).2
    rw [works] at nobody
    cases nobody
  | taken kept taken one last =>
    obtain ⟨-, rfl⟩ := s.background_owns works one
    exact ⟨kept, last (by rw [works]; rfl)⟩

theorem Held.alone {s t : Handles σ} {label : HandlesStep σ} (before : Held toVec s) {closing : Closing (Recorded σ)}
    (works : s.background = some closing) (moved : s.step w test toVec debug label = some t) :
    Alone w test toVec debug s label t := by
  -- The background works only once nobody holds the connection, so no other step is possible.
  obtain ⟨kept, gone⟩ := before.nobody works
  have noHolder {i : Nat} {holder : Holder σ} (present : s.holders[i]? = some holder)
      (alive : holder.dropped = false) : False :=
    Bool.false_ne_true (gone.symm.trans (s.held_holder present alive))
  have noCall {i : Nat} {call : SendCall} (present : s.calls[i]? = some call) (alive : call.dropped = false) : False :=
    Bool.false_ne_true (gone.symm.trans (s.held_call present alive))
  cases label with
  | clone i | request i _ | close i =>
    simp only [Handles.step] at moved
    split at moved
    · exact (noHolder (s.idle_holder ‹_›) rfl).elim
    · cases moved
  | turn i | drop i =>
    simp only [Handles.step] at moved
    split at moved
    · split at moved
      · cases moved
      · exact (noCall ‹_› (Bool.eq_false_iff.mpr ‹_›)).elim
    · cases moved
  | closeTurn i | abandon i =>
    simp only [Handles.step] at moved
    split at moved
    · exact (noHolder ‹_› rfl).elim
    · cases moved
  | background =>
    simp only [Handles.step, works] at moved
    obtain ⟨⟨tx, closing'⟩, turned, rfl⟩ := Option.map_eq_some_iff.mp moved
    refine .moves .close kept works rfl ?_ ?_
    · show (closing.turn w.recording s.tx).map _ = _
      rw [turned]
      rfl
    · simp only [BackgroundAccepts, CloseAccepts, works, Option.some.injEq, Handles.clones]
  | writer state =>
    cases moved
    refine .moves (.writer state) kept works (by rw [Handles.disturb, works]; rfl) rfl Iff.rfl

theorem Handles.release_background {s : Handles σ} (idle : s.background = none) :
    s.release.background = none ∨ ∃ tx, s.release.background = some (.writing tx) := by
  unfold release
  split
  · exact .inl idle
  · split
    · exact .inr ⟨_, rfl⟩
    · exact .inl idle

theorem Handles.step_background {s t : Handles σ} {label : HandlesStep σ} (idle : s.background = none)
    (moved : s.step w test toVec debug label = some t) :
    t.background = none ∨ ∃ tx, t.background = some (.writing tx) := by
  cases label with
  | clone i | request i _ | close i =>
    simp only [step] at moved
    split at moved <;> cases moved
    exact .inl idle
  | turn i | drop i =>
    simp only [step] at moved
    split at moved
    · split at moved <;> cases moved
      first
        | exact .inl idle
        | exact release_background idle
    · cases moved
  | closeTurn i =>
    simp only [step] at moved
    split at moved
    · obtain ⟨turned, -, rfl⟩ := Option.map_eq_some_iff.mp moved
      exact release_background idle
    · cases moved
  | abandon i =>
    simp only [step] at moved
    split at moved <;> cases moved
    exact release_background idle
  | background =>
    simp only [step, idle] at moved
    cases moved
  | writer state =>
    cases moved
    exact .inl (by rw [disturb, idle]; rfl)

/-- What is in the background has lost nothing. -/
def Handles.Delivers (s : Handles σ) : Prop := ∀ closing, s.background = some closing → Delivered s.frames closing

def Handles.Loses (s : Handles σ) : Prop := ∃ closing, s.background = some closing ∧ Lost s.frames closing

theorem Held.delivers {s t : Handles σ} {label : HandlesStep σ} (before : Held toVec s) (delivers : s.Delivers)
    (accepts : BackgroundAccepts w s label) (moved : s.step w test toVec debug label = some t) : t.Delivers := by
  cases works : s.background with
  | none =>
    intro closing begun
    rcases Handles.step_background works moved with idle | ⟨tx, begins⟩
    · cases idle.symm.trans begun
    · cases begins.symm.trans begun
      trivial
  | some closing =>
    obtain ⟨_, kept, had, has, own, same⟩ := before.alone works moved
    intro last begun
    cases has.symm.trans begun
    exact kept.delivered (delivers _ had) (same.mp accepts) own

theorem Held.gaveUp {s t : Handles σ} {label : HandlesStep σ} (before : Held toVec s)
    (refuses : ¬ BackgroundAccepts w s label) (moved : s.step w test toVec debug label = some t) : t.Loses := by
  cases works : s.background with
  | none =>
    refine absurd ?_ refuses
    cases label with
    | background =>
      simp only [Handles.step, works] at moved
      cases moved
    | _ => trivial
  | some closing =>
    obtain ⟨_, kept, had, has, own, same⟩ := before.alone works moved
    exact ⟨_, has, Kept.loses (fun accepts => refuses (same.mpr accepts)) own⟩

theorem Held.loses {s t : Handles σ} {label : HandlesStep σ} (before : Held toVec s) (lost : s.Loses)
    (moved : s.step w test toVec debug label = some t) : t.Loses := by
  obtain ⟨closing, works, left⟩ := lost
  obtain ⟨_, kept, had, has, own, same⟩ := before.alone works moved
  cases works.symm.trans had
  exact ⟨_, has, kept.lost left own⟩

/-- What the background delivers is decided by its own writes. -/
theorem background_exactly {state : σ} {labels : List (HandlesStep σ)} {t : Handles σ} {writer : Recorded σ}
    (run : execute (Handles.step w test toVec debug) (.new state) labels = some t)
    (closed : t.background = some (.closed (.ok writer))) :
    writer.accepted = t.frames ↔
      Throughout (Handles.step w test toVec debug) (BackgroundAccepts w) (.new state) labels := by
  constructor
  · intro whole
    apply Classical.byContradiction
    intro broken
    obtain ⟨first, label, rest, u, v, rfl, before, moved, after, refuses⟩ := exists_of_not_throughout run broken
    have held : Held toVec u := Held.run before
    have lost : Held toVec t ∧ t.Loses := by
      apply invariant_execute (fun s => Held toVec s ∧ s.Loses) ?_ ⟨held.step moved, held.gaveUp refuses moved⟩ after
      exact fun _ _ _ before moved => ⟨before.1.step moved, before.1.loses before.2 moved⟩
    obtain ⟨-, closing, works, left⟩ := lost
    cases closed.symm.trans works
    exact left whole
  · intro accepts
    have delivers : Held toVec t ∧ t.Delivers := by
      apply invariant_throughout (fun s => Held toVec s ∧ s.Delivers) ?_ ⟨.start state, nofun⟩ accepts run
      exact fun _ _ _ before met moved => ⟨before.1.step moved, before.1.delivers before.2 met moved⟩
    exact delivers.2 _ closed

end

/-- However clones and futures come and go, and whichever of them close the
connection or are dropped while they do, it is shared as long as somebody holds
it or it has been taken out to one place. When the last holder is gone and none
has taken it out, it is closed in the background. A future that has succeeded has
had its messages enqueued, and the connection gets all that was enqueued exactly
if it turns down no write made in the background. -/
theorem last_holder_closes {σ : Type} (w : AsyncWrite σ) (test : Bool)
    (toVec : Message → Except SerializeError Bytes) (debug : Message → String) (state : σ)
    (labels : List (HandlesStep σ)) (s : Handles σ)
    (run : execute (Handles.step w test toVec debug) (.new state) labels = some s) :
    (s.tx.isOpen = true ∧ s.owners = [] ∧ s.held = true ∨
      s.tx.shared = .error .closed ∧ ∃ owner, s.owners = [owner]) ∧
      (s.background.isSome = true → s.held = false) ∧
      (∀ i call, s.calls[i]? = some call → .answered (.ready (.ok ())) ∈ call.polls →
        call.msgs.map toVec = (contributed s.order i).map .ok) ∧
      (∀ writer, s.owners = [.closed (.ok writer)] → writer.accepted <+: s.frames) ∧
      ∀ writer, s.background = some (.closed (.ok writer)) →
        (writer.accepted = s.frames ↔
          Throughout (Handles.step w test toVec debug) (BackgroundAccepts w) (.new state) labels) := by
  have held : Held toVec s := Held.run run
  have credited : Credited toVec s.calls s.order := by
    cases held.owned with
    | shared kept none => exact kept.credited
    | taken kept taken one last => exact kept.credited
  refine ⟨?_, fun works => ?_, fun i call present => (credited.each i call present).finished, fun writer closed => ?_,
    fun writer => background_exactly run⟩
  · cases held.owned with
    | shared kept none => exact .inl ⟨kept.placed.1, none, held.alive none⟩
    | taken kept taken one last => exact .inr ⟨kept.placed.closed taken, _, one⟩
  · obtain ⟨closing, works⟩ := Option.isSome_iff_exists.mp works
    exact (held.nobody works).2
  · cases held.owned with
    | shared kept none => cases none.symm.trans closed
    | taken kept taken one last =>
      cases one.symm.trans closed
      exact kept.placed.2

/-- A clone begins to close and is dropped while it flushes, and so is a future
that has sent its message. The last clone goes without closing. -/
def dropping : List (HandlesStep (List (Poll (Except IoError Nat)))) :=
  [.clone 0, .request 1 (.send [.kill ⟨9⟩]), .close 1, .closeTurn 1, .turn 0, .turn 0, .drop 0, .abandon 1, .abandon 0,
    .background, .background, .background, .background]

theorem last_holder_closes_dropping :
    ∃ (s : Handles (List (Poll (Except IoError Nat)))) (writer : Recorded (List (Poll (Except IoError Nat)))),
      s.background = some (.closed (.ok writer)) ∧ s.held = false ∧
      s.frames = framesOf [Message.text (.kill ⟨9⟩)] ∧ writer.accepted <+: s.frames ∧
      (writer.accepted = s.frames ↔
        Throughout (Handles.step scripted false messageText (fun _ => "")) (BackgroundAccepts scripted)
          (.new [.pending, .ready (.ok 3), .pending, .ready (.ok 100)]) dropping) := by
  let script : List (Poll (Except IoError Nat)) := [.pending, .ready (.ok 3), .pending, .ready (.ok 100)]
  have completes : (execute (Handles.step scripted false messageText (fun _ => "")) (.new script) dropping).map
      (fun s => ((s.background.bind Closing.handedBack).isSome, s.frames)) =
      some (true, framesOf [Message.text (.kill ⟨9⟩)]) := by decide +kernel
  obtain ⟨s, run, reached⟩ := Option.map_eq_some_iff.mp completes
  obtain ⟨handed, frames⟩ := Prod.mk.inj reached
  obtain ⟨accepted, handed⟩ := Option.isSome_iff_exists.mp handed
  obtain ⟨closing, works, handed⟩ := Option.bind_eq_some_iff.mp handed
  obtain ⟨writer, rfl, -⟩ := Closing.handedBack_writer handed
  obtain ⟨owned, last, -, arrives, whole⟩ := last_holder_closes scripted false messageText (fun _ => "") script dropping s run
  have one : s.owners = [.closed (.ok writer)] := by
    rcases owned with ⟨-, none, -⟩ | ⟨-, owner, one⟩
    · rw [Handles.owners, works] at none
      exact absurd (List.append_eq_nil_iff.mp none).2 (List.cons_ne_nil _ _)
    · obtain ⟨-, rfl⟩ := s.background_owns works one
      exact one
  exact ⟨s, writer, works, last (by rw [works]; rfl), frames, arrives writer one, whole writer works⟩

end MinimalVm.Io
