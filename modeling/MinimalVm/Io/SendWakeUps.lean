import MinimalVm.Io.Clones

/-! Tasks that await their sends on clones of one sending end.

The writer keeps one waker, that of whoever it last told to wait. A sender may
be told to wait and still be done, because its bytes can be left in the buffer.
If another task is parked at that moment it is no longer the one to be woken.
-/

set_option autoImplicit false

namespace MinimalVm.Io

open MinimalVm.Semantics MinimalVm.Protocol MinimalVm.Text

structure Watched (σ : Type) where
  state : σ
  asked : Bool

/-- The same writer, noting when it tells its caller to wait. -/
def watching {σ : Type} (w : AsyncWrite σ) : AsyncWrite (Watched σ) where
  pollWrite this offered :=
    let polled := w.pollWrite this.state offered
    (polled.1, ⟨polled.2, this.asked || polled.1.isPending⟩)
  pollFlush this :=
    let polled := w.pollFlush this.state
    (polled.1, ⟨polled.2, this.asked || polled.1.isPending⟩)
  pollShutdown this :=
    let polled := w.pollShutdown this.state
    (polled.1, ⟨polled.2, this.asked || polled.1.isPending⟩)

/-- A task awaits at most one future. A wake-up that comes while its future is
being polled lets it be polled again. -/
inductive SendTaskState where
  | idle
  | scheduled (future : DoSend)
  | running (future : DoSend) (woken : Bool)
  | parked (future : DoSend)

/-- The future whose turn it can be. A parked task may be polled without having
been woken, by whatever else it waits for. -/
def SendTaskState.turn? : SendTaskState → Option (DoSend × Bool)
  | .idle => none
  | .scheduled future | .parked future => some (future, false)
  | .running future woken => some (future, woken)

def SendTaskState.isParked : SendTaskState → Bool
  | .parked _ => true
  | .idle | .scheduled _ | .running _ _ => false

structure SendTasks (σ : Type) where
  tx : Tx (Watched σ)
  states : List SendTaskState
  waker : Option Nat

inductive SendTaskStep (σ : Type) where
  | request (task : Nat) (request : SendRequest)
  | turn (task : Nat)
  | wake
  | drop (task : Nat)
  | writer (state : σ)

namespace SendTasks

variable {σ : Type} (w : AsyncWrite σ) (test : Bool) (toVec : Message → Except SerializeError Bytes)
  (debug : Message → String)

def new (state : σ) (tasks : Nat) : SendTasks σ := ⟨.new ⟨state, false⟩, List.replicate tasks .idle, none⟩

def mapWriter (f : Watched σ → Watched σ) (tx : Tx (Watched σ)) : Tx (Watched σ) :=
  ⟨tx.shared.map fun tx => { tx with writer := f tx.writer }⟩

def unasked (tx : Tx (Watched σ)) : Tx (Watched σ) := mapWriter (fun writer => { writer with asked := false }) tx

def asked (tx : Tx (Watched σ)) : Bool :=
  match tx.shared with
  | .ok tx => tx.writer.asked
  | .error _ => false

def turnOf (this : SendTasks σ) (future : DoSend) : Option Polled × Tx (Watched σ) × DoSend :=
  future.turn (watching w) test (unasked this.tx)

def after (woken : Bool) (future : DoSend) : Option Polled → SendTaskState
  | none => .running future woken
  | some (.answered .pending) => if woken then .scheduled future else .parked future
  | some (.answered (.ready _)) | some .panicked => .idle

def turnTask (this : SendTasks σ) (task : Nat) (future : DoSend) (woken : Bool) : SendTasks σ :=
  let turned := this.turnOf w test future
  { tx := turned.2.1
    states := this.states.set task (after woken turned.2.2 turned.1)
    waker := if asked turned.2.1 then some task else this.waker }

def step (this : SendTasks σ) : SendTaskStep σ → Option (SendTasks σ)
  | .request task request =>
    match this.states[task]? with
    | some .idle => some { this with states := this.states.set task (.scheduled (request.future toVec debug)) }
    | _ => none
  | .turn task =>
    (this.states[task]?.bind SendTaskState.turn?).map fun (future, woken) => this.turnTask w test task future woken
  | .wake =>
    match this.waker with
    | none => none
    | some task =>
      match this.states[task]? with
      | some (.parked future) =>
        some { this with states := this.states.set task (.scheduled future), waker := none }
      | some (.running future _) =>
        some { this with states := this.states.set task (.running future true), waker := none }
      -- Nothing is left to be woken, but the waker is spent all the same.
      | _ => some { this with waker := none }
  | .drop task =>
    if task < this.states.length then some { this with states := this.states.set task .idle } else none
  | .writer state => some { this with tx := mapWriter (fun writer => { writer with state }) this.tx }

end SendTasks

/-! ## Who is told to wait -/

section
variable {σ : Type} (w : AsyncWrite σ) (test : Bool)

theorem TxLocal.pollTransmit_asked (this : TxLocal (Watched σ))
    (pending : (pollTransmit (watching w) this).1 = .pending) :
    (pollTransmit (watching w) this).2.writer.asked = true := by
  fun_induction pollTransmit (watching w) this with
  | case1 this empty => cases pending
  | case2 this nonempty writer polled =>
    obtain ⟨answer, left⟩ := Prod.mk.inj polled
    simp [← left, answer, Poll.isPending]
  | case3 this nonempty error writer polled => cases pending
  | case4 this nonempty n writer polled zero => cases pending
  | case5 this nonempty n writer polled positive ih => exact ih pending

theorem TxLocal.pollFlush_pending (this : TxLocal σ) (pending : (pollFlush w this).1 = .pending) :
    (pollTransmit w this).1 = .pending ∨ (w.pollFlush (pollTransmit w this).2.writer).1 = .pending := by
  unfold pollFlush at pending
  dsimp only at pending
  cases transmitted : (pollTransmit w this).1 with
  | pending => exact .inl rfl
  | ready result =>
    cases flushed : (w.pollFlush (pollTransmit w this).2.writer).1 with
    | pending => exact .inr rfl
    | ready flush =>
      rw [transmitted, flushed] at pending
      obtain error | _ := result
      · cases pending
      · obtain error | _ := flush <;> cases pending

theorem TxLocal.pollFlush_asked (this : TxLocal (Watched σ)) (pending : (pollFlush (watching w) this).1 = .pending) :
    (pollFlush (watching w) this).2.writer.asked = true := by
  have flushing (writer : Watched σ) : ((watching w).pollFlush writer).2.asked =
      (writer.asked || ((watching w).pollFlush writer).1.isPending) := rfl
  rw [pollFlush_eq]
  dsimp only
  rw [flushing]
  rcases pollFlush_pending (watching w) this pending with waits | waits
  · rw [pollTransmit_asked w this waits, Bool.true_or]
  · rw [waits, Poll.isPending, Bool.or_true]

theorem TxLocal.pollFlushInBg_asked (this : TxLocal (Watched σ))
    (pending : (pollFlushInBg (watching w) test this).1 = .pending) :
    (pollFlushInBg (watching w) test this).2.writer.asked = true := by
  have flushing := pollFlush_asked w this
  unfold pollFlushInBg at pending ⊢
  split at pending
  · cases pending
  · cases pending
  · rename_i polled
    rw [polled] at flushing
    split at pending
    · rename_i full
      rw [if_pos full]
      exact flushing rfl
    · cases pending

theorem TxLocal.pollSend_asked (this : TxLocal (Watched σ)) (msg : Sending)
    (pending : (pollSend (watching w) test this msg).1 = .pending) :
    (pollSend (watching w) test this msg).2.1.writer.asked = true := by
  have opening := pollFlushInBg_asked w test this
  unfold pollSend at pending ⊢
  split at pending
  · rename_i polled
    rw [polled] at opening
    exact opening rfl
  · cases pending
  · exact pollFlushInBg_asked w test _ pending

theorem Tx.pollSend_asked (this : Tx (Watched σ)) (msg : Sending)
    (pending : (this.pollSend (watching w) test msg).1 = .pending) :
    SendTasks.asked (this.pollSend (watching w) test msg).2.1 = true := by
  obtain ⟨error | tx⟩ := this
  · cases pending
  · exact tx.pollSend_asked w test msg pending

theorem Tx.pollFlush_asked (this : Tx (Watched σ)) (pending : (this.pollFlush (watching w)).1 = .pending) :
    SendTasks.asked (this.pollFlush (watching w)).2 = true := by
  obtain ⟨error | tx⟩ := this
  · cases pending
  · exact tx.pollFlush_asked w pending

/-- A future waits only after the writer told it to. -/
theorem DoSend.turn_asked (this : DoSend) (tx : Tx (Watched σ))
    (pending : (this.turn (watching w) test tx).1 = some (.answered .pending)) :
    SendTasks.asked (this.turn (watching w) test tx).2.1 = true := by
  have turned := this.turn_turned (watching w) test tx
  generalize this.turn (watching w) test tx = result at turned pending
  cases turned with
  | refused | sent _ | finished => cases pending
  | @stopped msg _ _ _ _ _ polled _ =>
    cases pending
    have asked := tx.pollSend_asked w test msg
    rw [polled] at asked
    exact asked rfl
  | flushed polled =>
    cases pending
    have asked := tx.pollFlush_asked w
    rw [polled] at asked
    exact asked rfl

end

/-! ## Who is woken -/

section
variable {σ : Type} {w : AsyncWrite σ} {test : Bool} {toVec : Message → Except SerializeError Bytes}
  {debug : Message → String}

/-- No task is parked and forgotten while its future would have an answer. -/
def NoneForgotten (w : AsyncWrite σ) (test : Bool) (s : SendTasks σ) : Prop :=
  ∀ (task : Nat) (future : DoSend), s.states[task]? = some (.parked future) → s.waker ≠ some task →
    ∀ outcome, (future.poll (watching w) test s.tx).1 ≠ .answered (.ready outcome)

/-- Whoever is parked is the one to be woken. -/
def Registered (s : SendTasks σ) : Prop :=
  ∀ (task : Nat) (future : DoSend), s.states[task]? = some (.parked future) → s.waker = some task

/-- The writer tells nobody to wait while somebody else is parked. -/
def ReplacesNone (w : AsyncWrite σ) (test : Bool) (s : SendTasks σ) : SendTaskStep σ → Prop
  | .turn task => ∀ future woken, s.states[task]?.bind SendTaskState.turn? = some (future, woken) →
      SendTasks.asked (s.turnOf w test future).2.1 = true →
      ∀ other, other ≠ task → ∀ waiting, s.states[other]? ≠ some (.parked waiting)
  | .request _ _ | .wake | .drop _ | .writer _ => True

theorem Registered.noneForgotten {s : SendTasks σ} (registered : Registered s) : NoneForgotten w test s :=
  fun task future parked forgotten => absurd (registered task future parked) forgotten

theorem SendTasks.after_parked {woken : Bool} {future waiting : DoSend} {polled : Option Polled}
    (parked : after woken future polled = .parked waiting) : polled = some (.answered .pending) := by
  match polled, parked with
  | some (.answered .pending), _ => rfl

/-- A turn leaves everybody registered exactly if it replaces nobody. -/
theorem turnTask_exact {s : SendTasks σ} {task : Nat} {future : DoSend} {woken : Bool} (registered : Registered s)
    (turns : s.states[task]?.bind SendTaskState.turn? = some (future, woken)) :
    Registered (s.turnTask w test task future woken) ↔ ReplacesNone w test s (.turn task) := by
  have others {other : Nat} (apart : other ≠ task) :
      (s.turnTask w test task future woken).states[other]? = s.states[other]? :=
    List.getElem?_set_ne apart.symm
  constructor
  · intro after future' woken' turns' asked other apart waiting parked
    cases turns.symm.trans turns'
    have told := after other waiting ((others apart).trans parked)
    simp only [SendTasks.turnTask, asked, if_true, Option.some.injEq] at told
    exact apart told.symm
  · intro replaces other waiting parked
    cases asked : SendTasks.asked (s.turnOf w test future).2.1 with
    | true =>
      by_cases same : other = task
      · simp only [SendTasks.turnTask, asked, if_true, same]
      · have before := (others same).symm.trans parked
        exact absurd before (replaces future woken turns asked other same waiting)
    | false =>
      simp only [SendTasks.turnTask, asked, Bool.false_eq_true, if_false]
      by_cases same : other = task
      · subst same
        -- Its own turn can only have parked it by waiting.
        rw [SendTasks.turnTask, List.getElem?_set, if_pos rfl] at parked
        split at parked
        · have waits := SendTasks.after_parked (Option.some.inj parked)
          rw [SendTasks.turnOf, future.turn_asked w test _ waits] at asked
          cases asked
        · cases parked
      · exact registered other waiting ((others same).symm.trans parked)

theorem Registered.of_unparked {s t : SendTasks σ} (registered : Registered s) (waker : t.waker = s.waker)
    (unparked : ∀ (task : Nat) (future : DoSend), t.states[task]? = some (.parked future) →
      s.states[task]? = some (.parked future)) : Registered t := fun task future parked =>
  waker.trans (registered task future (unparked task future parked))

theorem SendTasks.unparked_set {states : List SendTaskState} {changed : Nat} {state : SendTaskState}
    (awake : ∀ future, state ≠ .parked future) (task : Nat) (future : DoSend)
    (parked : (states.set changed state)[task]? = some (.parked future)) :
    task ≠ changed ∧ states[task]? = some (.parked future) := by
  rw [List.getElem?_set] at parked
  split at parked
  · split at parked
    · exact absurd (Option.some.inj parked) (awake future)
    · cases parked
  · rename_i apart
    exact ⟨fun same => apart same.symm, parked⟩

theorem Registered.set {s : SendTasks σ} (registered : Registered s) (task : Nat) {state : SendTaskState}
    (awake : ∀ future, state ≠ .parked future) : Registered { s with states := s.states.set task state } := by
  refine registered.of_unparked rfl ?_
  intro other future parked
  exact (SendTasks.unparked_set awake other future parked).2

theorem Registered.wake {s t : SendTasks σ} (registered : Registered s) {task : Nat} (waker : s.waker = some task)
    (unparked : ∀ (other : Nat) (future : DoSend), t.states[other]? = some (.parked future) →
      other ≠ task ∧ s.states[other]? = some (.parked future)) : Registered t := by
  intro other future parked
  obtain ⟨apart, before⟩ := unparked other future parked
  cases waker.symm.trans (registered other future before)
  exact absurd rfl apart

theorem SendTasks.step_exact (s : SendTasks σ) (label : SendTaskStep σ) (t : SendTasks σ) (registered : Registered s)
    (moved : s.step w test toVec debug label = some t) : Registered t ↔ ReplacesNone w test s label := by
  cases label with
  | request task request =>
    simp only [step] at moved
    split at moved <;> cases moved
    exact iff_of_true (registered.set task fun _ same => by cases same) trivial
  | turn task =>
    obtain ⟨⟨future, woken⟩, turns, rfl⟩ := Option.map_eq_some_iff.mp moved
    exact turnTask_exact registered turns
  | wake =>
    simp only [step] at moved
    split at moved
    · cases moved
    · rename_i task waker
      refine iff_of_true ?_ trivial
      split at moved <;> cases moved
      · exact registered.wake waker (unparked_set fun _ same => by cases same)
      · exact registered.wake waker (unparked_set fun _ same => by cases same)
      · rename_i unparked _
        apply registered.wake waker
        intro other future parked
        refine ⟨?_, parked⟩
        rintro rfl
        exact unparked future parked
  | drop task =>
    simp only [step] at moved
    split at moved <;> cases moved
    exact iff_of_true (registered.set task fun _ same => by cases same) trivial
  | writer state =>
    cases moved
    exact iff_of_true (registered.of_unparked rfl fun _ _ parked => parked) trivial

theorem SendTasks.registered_new (state : σ) (tasks : Nat) : Registered (.new state tasks : SendTasks σ) := by
  intro task future parked
  simp [SendTasks.new, List.getElem?_replicate] at parked

/-- Whoever is parked stays registered all along a run exactly if the run
replaces no waker of a parked task. -/
theorem registered_exactly (state : σ) (tasks : Nat) (labels : List (SendTaskStep σ)) (s : SendTasks σ)
    (run : execute (SendTasks.step w test toVec debug) (.new state tasks) labels = some s) :
    Always (SendTasks.step w test toVec debug) Registered (.new state tasks) labels ↔
      Throughout (SendTasks.step w test toVec debug) (ReplacesNone w test) (.new state tasks) labels :=
  always_iff_throughout SendTasks.step_exact (SendTasks.registered_new state tasks) run

theorem replacesNone_turn {s : SendTasks σ} {task : Nat} :
    ReplacesNone w test s (.turn task) ↔
      ∀ turn ∈ s.states[task]?.bind SendTaskState.turn?, SendTasks.asked (s.turnOf w test turn.1).2.1 = true →
        ∀ other < s.states.length, other ≠ task → (s.states[other]?.map SendTaskState.isParked) ≠ some true := by
  constructor
  · rintro replaces ⟨future, woken⟩ turns asked other inside apart
    have awake := replaces future woken turns asked other apart
    cases found : s.states[other]? with
    | none => nofun
    | some state =>
      cases state with
      | parked waiting => exact absurd found (awake waiting)
      | idle | scheduled _ | running _ _ => simp [SendTaskState.isParked]
  · intro replaces future woken turns asked other apart waiting parked
    have inside : other < s.states.length := (List.getElem?_eq_some_iff.mp parked).1
    apply replaces (future, woken) turns asked other inside apart
    rw [parked]
    rfl

instance decidableReplacesNone (s : SendTasks σ) : (label : SendTaskStep σ) → Decidable (ReplacesNone w test s label)
  | .turn _ => decidable_of_iff _ replacesNone_turn.symm
  | .request _ _ | .wake | .drop _ | .writer _ => .isTrue trivial

end

/-- No task is ever forgotten in a run that replaces no waker of a parked task. -/
theorem no_send_forgotten {σ : Type} (w : AsyncWrite σ) (test : Bool)
    (toVec : Message → Except SerializeError Bytes) (debug : Message → String) (state : σ) (tasks : Nat)
    (labels : List (SendTaskStep σ)) (s : SendTasks σ)
    (run : execute (SendTasks.step w test toVec debug) (.new state tasks) labels = some s)
    (replaces : Throughout (SendTasks.step w test toVec debug) (ReplacesNone w test) (.new state tasks) labels) :
    Always (SendTasks.step w test toVec debug) (NoneForgotten w test) (.new state tasks) labels := by
  have registered := (registered_exactly state tasks labels s run).mpr replaces
  intro first rest t split reached
  exact (registered first rest t split reached).noneForgotten

def gated : AsyncWrite Bool where
  pollWrite isOpen offered := (if isOpen then .ready (.ok ⟨offered.length, Nat.le_refl _⟩) else .pending, isOpen)
  pollFlush isOpen := (if isOpen then .ready (.ok ()) else .pending, isOpen)
  pollShutdown isOpen := (.ready (.ok ()), isOpen)

theorem no_send_forgotten_kill :
    Always (SendTasks.step gated false messageText (fun _ => "")) (NoneForgotten gated false) (.new false 2)
      [.request 0 (.sendAndFlush [.kill ⟨9⟩]), .turn 0, .turn 0, .writer true, .wake,
        .request 1 (.send [.stdin .closed]), .turn 1, .turn 0] := by
  let labels : List (SendTaskStep Bool) :=
    [.request 0 (.sendAndFlush [.kill ⟨9⟩]), .turn 0, .turn 0, .writer true, .wake,
      .request 1 (.send [.stdin .closed]), .turn 1, .turn 0]
  have completes : (execute (SendTasks.step gated false messageText (fun _ => "")) (.new false 2)
      labels).isSome = true := by decide +kernel
  obtain ⟨s, run⟩ := Option.isSome_iff_exists.mp completes
  exact no_send_forgotten gated false messageText (fun _ => "") false 2 labels s run (by decide +kernel)

def SendTaskState.awaitsFlush : SendTaskState → Bool
  | .parked ⟨.ok [], true⟩ => true
  | _ => false

theorem SendTaskState.of_awaitsFlush {state : Option SendTaskState}
    (awaits : state.map SendTaskState.awaitsFlush = some true) : state = some (.parked ⟨.ok [], true⟩) := by
  match state, awaits with
  | some (.parked ⟨.ok [], true⟩), _ => rfl

/-- The first task flushes and is told to wait. The second one is told to wait
too, but its message is small enough to be left in the buffer. When the writer
is ready the first task is not the one it wakes. -/
theorem send_forgotten :
    ∃ s : SendTasks Bool, execute (SendTasks.step gated false messageText (fun _ => "")) (.new false 2)
        [.request 0 (.sendAndFlush [.kill ⟨9⟩]), .turn 0, .turn 0, .request 1 (.send [.stdin .closed]), .turn 1,
          .turn 1, .writer true] = some s ∧
      s.states[0]? = some (.parked ⟨.ok [], true⟩) ∧ s.waker = some 1 ∧
      (DoSend.poll (watching gated) false s.tx ⟨.ok [], true⟩).1 = .answered (.ready (.ok ())) ∧
      ¬ NoneForgotten gated false s := by
  have completes : ((execute (SendTasks.step gated false messageText (fun _ => "")) (.new false 2)
      [.request 0 (.sendAndFlush [.kill ⟨9⟩]), .turn 0, .turn 0, .request 1 (.send [.stdin .closed]), .turn 1,
        .turn 1, .writer true]).map fun s => (s.states[0]?.map SendTaskState.awaitsFlush, s.waker,
          (DoSend.poll (watching gated) false s.tx ⟨.ok [], true⟩).1.succeeded)) =
      some (some true, some 1, true) := by decide +kernel
  obtain ⟨s, run, reached⟩ := Option.map_eq_some_iff.mp completes
  simp only [Prod.mk.injEq] at reached
  obtain ⟨awaits, waker, succeeds⟩ := reached
  have parked := SendTaskState.of_awaitsFlush awaits
  have answer := Option.some.inj (Polled.of_succeeded (congrArg some succeeds))
  refine ⟨s, run, parked, waker, answer, ?_⟩
  intro remembered
  exact remembered 0 _ parked (by rw [waker]; decide) _ answer

end MinimalVm.Io
