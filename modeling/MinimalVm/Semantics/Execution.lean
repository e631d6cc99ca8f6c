/-! Finite executions of a labelled partial step function.

A label carries everything the environment chooses at one step, so a list of
labels fixes the whole execution and a property of every interleaving is a
property of every list. A disabled label ends the execution without a result.
-/

set_option autoImplicit false

namespace MinimalVm.Semantics

variable {S L : Type}

/-- Perform the labels from left to right. -/
def execute (step : S → L → Option S) : S → List L → Option S
  | s, [] => some s
  | s, l :: ls => (step s l).bind (execute step · ls)

@[simp] theorem execute_nil (step : S → L → Option S) (s : S) : execute step s [] = some s := rfl

theorem execute_cons {step : S → L → Option S} {s t : S} {l : L} {ls : List L} :
    execute step s (l :: ls) = some t ↔ ∃ u, step s l = some u ∧ execute step u ls = some t := by
  simp [execute, Option.bind_eq_some_iff]

theorem execute_append {step : S → L → Option S} {s t : S} {ls ks : List L} :
    execute step s (ls ++ ks) = some t ↔
      ∃ u, execute step s ls = some u ∧ execute step u ks = some t := by
  induction ls generalizing s with
  | nil => simp
  | cons l ls ih =>
    simp only [List.cons_append, execute_cons, ih]
    constructor
    · rintro ⟨u, first, v, middle, last⟩
      exact ⟨v, ⟨u, first, middle⟩, last⟩
    · rintro ⟨v, ⟨u, first, middle⟩, last⟩
      exact ⟨u, first, v, middle, last⟩

def Reaches (step : S → L → Option S) (s t : S) : Prop := ∃ ls, execute step s ls = some t

theorem Reaches.refl (step : S → L → Option S) (s : S) : Reaches step s s := ⟨[], rfl⟩

theorem Reaches.after {step : S → L → Option S} {s t u : S} {l : L} (moved : step s l = some t)
    (rest : Reaches step t u) : Reaches step s u :=
  rest.elim fun ls run => ⟨l :: ls, execute_cons.mpr ⟨t, moved, run⟩⟩

theorem Reaches.trans {step : S → L → Option S} {s t u : S} (first : Reaches step s t)
    (rest : Reaches step t u) : Reaches step s u := by
  obtain ⟨ls, run⟩ := first
  obtain ⟨ks, more⟩ := rest
  exact ⟨ls ++ ks, execute_append.mpr ⟨t, run, more⟩⟩

/-- If every step is matched by steps of another kind, then every execution is. -/
theorem simulates {T K : Type} {step : S → L → Option S} {step' : T → K → Option T} {R : S → T → Prop}
    (matched : ∀ s l s' t, R s t → step s l = some s' → ∃ t', Reaches step' t t' ∧ R s' t')
    {s s' : S} {t : T} {ls : List L} (related : R s t) (run : execute step s ls = some s') :
    ∃ t', Reaches step' t t' ∧ R s' t' := by
  induction ls generalizing s t with
  | nil => exact ⟨t, .refl step' t, Option.some.inj run ▸ related⟩
  | cons l ls ih =>
    obtain ⟨u, moved, run⟩ := execute_cons.mp run
    obtain ⟨v, first, still⟩ := matched s l u t related moved
    obtain ⟨t', rest, last⟩ := ih still run
    exact ⟨t', first.trans rest, last⟩

theorem execute_map {T : Type} {step : S → L → Option S} {step' : T → L → Option T} {f : S → T}
    (same : ∀ s l, step' (f s) l = (step s l).map f) (s : S) (ls : List L) :
    execute step' (f s) ls = (execute step s ls).map f := by
  induction ls generalizing s with
  | nil => rfl
  | cons l ls ih =>
    rw [execute, execute, same]
    cases step s l with
    | none => rfl
    | some t => exact ih t

/-- A condition met by the state and the label of every step of an execution. -/
def Throughout (step : S → L → Option S) (condition : S → L → Prop) : S → List L → Prop
  | _, [] => True
  | s, l :: ls => condition s l ∧ ∀ t, step s l = some t → Throughout step condition t ls

instance decidableThroughout {step : S → L → Option S} {condition : S → L → Prop}
    [∀ s l, Decidable (condition s l)] : (s : S) → (ls : List L) → Decidable (Throughout step condition s ls)
  -- Nothing is asked of the labels after one that is disabled.
  | _, [] => .isTrue trivial
  | s, l :: ls =>
    match moved : step s l with
    | none => decidable_of_iff (condition s l) (by simp [Throughout, moved])
    | some t =>
      have : Decidable (Throughout step condition t ls) := decidableThroughout t ls
      decidable_of_iff (condition s l ∧ Throughout step condition t ls) (by simp [Throughout, moved])

/-- An invariant kept by every step that meets a condition holds at the end of
every execution whose steps all meet it. -/
theorem invariant_throughout {step : S → L → Option S} {condition : S → L → Prop} (inv : S → Prop)
    (preserved : ∀ s l t, inv s → condition s l → step s l = some t → inv t)
    {s t : S} {ls : List L} (start : inv s) (met : Throughout step condition s ls)
    (run : execute step s ls = some t) : inv t := by
  induction ls generalizing s with
  | nil => exact Option.some.inj run ▸ start
  | cons l ls ih =>
    obtain ⟨u, first, rest⟩ := execute_cons.mp run
    exact ih (preserved s l u start met.1 first) (met.2 u first) rest

theorem throughout_of_forall {step : S → L → Option S} {condition : S → L → Prop}
    (always : ∀ s l, condition s l) (s : S) (ls : List L) : Throughout step condition s ls := by
  induction ls generalizing s with
  | nil => trivial
  | cons l ls ih => exact ⟨always s l, fun t _ => ih t⟩

/-- An execution that fails a condition somewhere has a first step that fails it. -/
theorem exists_of_not_throughout {step : S → L → Option S} {condition : S → L → Prop} {s t : S} {ls : List L}
    (run : execute step s ls = some t) (broken : ¬ Throughout step condition s ls) :
    ∃ first l rest u v, ls = first ++ l :: rest ∧ execute step s first = some u ∧ step u l = some v ∧
      execute step v rest = some t ∧ ¬ condition u l := by
  induction ls generalizing s with
  | nil => exact absurd trivial broken
  | cons l ls ih =>
    obtain ⟨v, moved, run⟩ := execute_cons.mp run
    by_cases met : condition s l
    · have later : ¬ Throughout step condition v ls := fun holds =>
        broken ⟨met, fun w same => Option.some.inj (moved.symm.trans same) ▸ holds⟩
      obtain ⟨first, k, rest, u, w, rfl, before, breaks, after, unmet⟩ := ih run later
      exact ⟨l :: first, k, rest, u, w, rfl, execute_cons.mpr ⟨v, moved, before⟩, breaks, after, unmet⟩
    · exact ⟨[], l, ls, s, v, rfl, rfl, moved, run, met⟩

/-- An invariant kept by every step holds at the end of every execution. -/
theorem invariant_execute {step : S → L → Option S} (inv : S → Prop)
    (preserved : ∀ s l t, inv s → step s l = some t → inv t)
    {s t : S} {ls : List L} (start : inv s) (run : execute step s ls = some t) : inv t := by
  have always : Throughout step (fun _ _ => True) s ls := throughout_of_forall (fun _ _ => True.intro) s ls
  exact invariant_throughout inv (fun s l t holds _ moved => preserved s l t holds moved) start always run

/-- An invariant that may speak of the labels performed so far. -/
theorem invariant_labels {step : S → L → Option S} {s : S} (inv : List L → S → Prop)
    (preserved : ∀ ls t l u, execute step s ls = some t → inv ls t → step t l = some u → inv (ls ++ [l]) u)
    (start : inv [] s) {t : S} {ls : List L} (run : execute step s ls = some t) : inv ls t := by
  suffices onwards : ∀ (rest first : List L) (u : S), execute step s first = some u → inv first u →
      execute step u rest = some t → inv (first ++ rest) t from onwards ls [] s rfl start run
  intro rest
  induction rest with
  | nil =>
    intro first u _ holds last
    rw [List.append_nil]
    exact Option.some.inj last ▸ holds
  | cons l rest ih =>
    intro first u reached holds last
    obtain ⟨v, moved, later⟩ := execute_cons.mp last
    have further : execute step s (first ++ [l]) = some v :=
      execute_append.mpr ⟨u, reached, execute_cons.mpr ⟨v, moved, rfl⟩⟩
    rw [List.append_cons]
    exact ih (first ++ [l]) v further (preserved first u l v reached holds moved) later

/-- A property of every state that an execution passes through. -/
def Always (step : S → L → Option S) (P : S → Prop) (s : S) (ls : List L) : Prop :=
  ∀ first rest t, ls = first ++ rest → execute step s first = some t → P t

theorem always_cons {step : S → L → Option S} {P : S → Prop} {s u : S} {l : L} {ls : List L}
    (moved : step s l = some u) : Always step P s (l :: ls) ↔ P s ∧ Always step P u ls := by
  constructor
  · intro always
    refine ⟨always [] (l :: ls) s rfl rfl, fun first rest t split run => ?_⟩
    exact always (l :: first) rest t (split ▸ rfl) (execute_cons.mpr ⟨u, moved, run⟩)
  · rintro ⟨now, later⟩ first rest t split run
    cases first with
    | nil => exact Option.some.inj run ▸ now
    | cons k first =>
      obtain ⟨rfl, shorter⟩ := List.cons.inj split
      obtain ⟨v, same, run⟩ := execute_cons.mp run
      cases moved.symm.trans same
      exact later first rest t shorter run

/-- If a step keeps an invariant exactly when it meets a condition, then an
execution keeps it all along exactly when all its steps meet the condition. -/
theorem always_iff_throughout {step : S → L → Option S} {condition : S → L → Prop} {P : S → Prop}
    (exactly : ∀ s l t, P s → step s l = some t → (P t ↔ condition s l)) {s t : S} {ls : List L}
    (start : P s) (run : execute step s ls = some t) :
    Always step P s ls ↔ Throughout step condition s ls := by
  -- The equivalence for one step needs the property before it, so both
  -- directions carry the property along.
  induction ls generalizing s with
  | nil =>
    refine ⟨fun _ => trivial, fun _ first rest u split reached => ?_⟩
    obtain ⟨rfl, -⟩ := List.append_eq_nil_iff.mp split.symm
    exact Option.some.inj reached ▸ start
  | cons l ls ih =>
    obtain ⟨u, moved, run⟩ := execute_cons.mp run
    rw [always_cons moved, Throughout]
    constructor
    · rintro ⟨-, later⟩
      have kept : P u := later [] ls u rfl rfl
      refine ⟨(exactly s l u start moved).mp kept, fun v same => ?_⟩
      cases moved.symm.trans same
      exact (ih kept run).mp later
    · rintro ⟨met, later⟩
      have kept := (exactly s l u start moved).mpr met
      exact ⟨start, (ih kept run).mpr (later u moved)⟩

end MinimalVm.Semantics
