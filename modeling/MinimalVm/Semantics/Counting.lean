import MinimalVm.Semantics.Execution

/-! Counting the steps of an execution that are of a kind, and gathering what
the steps yield.

A bound on how often something happens is paid for by quantities of the state:
if every step of the kind lowers one of them, or another step makes up for it,
then the sums along an execution balance as those of a single step do.
-/

set_option autoImplicit false

namespace MinimalVm.Semantics

variable {S L : Type}

def countSteps (step : S → L → Option S) (kind : S → L → Bool) : S → List L → Nat
  | _, [] => 0
  | s, l :: ls =>
    match step s l with
    | none => 0
    | some t => (kind s l).toNat + countSteps step kind t ls

variable {step : S → L → Option S} {kind other : S → L → Bool} {s t u : S} {l : L} {ls ks : List L}

@[simp] theorem countSteps_nil (step : S → L → Option S) (kind : S → L → Bool) (s : S) :
    countSteps step kind s [] = 0 := rfl

theorem countSteps_cons (moved : step s l = some t) (kind : S → L → Bool) (ls : List L) :
    countSteps step kind s (l :: ls) = (kind s l).toNat + countSteps step kind t ls := by
  rw [countSteps, moved]

theorem countSteps_append (run : execute step s ls = some t) (kind : S → L → Bool) (ks : List L) :
    countSteps step kind s (ls ++ ks) = countSteps step kind s ls + countSteps step kind t ks := by
  induction ls generalizing s with
  | nil =>
    cases run
    simp
  | cons l ls ih =>
    obtain ⟨u, moved, rest⟩ := execute_cons.mp run
    rw [List.cons_append, countSteps_cons moved, countSteps_cons moved, ih rest, Nat.add_assoc]

theorem countSteps_eq_zero (run : execute step s ls = some t) :
    countSteps step kind s ls = 0 ↔ Throughout step (fun s l => kind s l = false) s ls := by
  induction ls generalizing s with
  | nil => simp [Throughout]
  | cons l ls ih =>
    obtain ⟨u, moved, rest⟩ := execute_cons.mp run
    rw [countSteps_cons moved, Throughout, Nat.add_eq_zero_iff, ih rest, Bool.toNat_eq_zero]
    refine and_congr_right fun _ => ⟨fun met v same => ?_, fun met => met u moved⟩
    cases moved.symm.trans same
    exact met

/-- If the steps of one kind and of another keep the books of two quantities,
then so do their numbers along an execution. -/
theorem countSteps_balance {inv : S → Prop} (falls rises : S → Nat)
    (preserved : ∀ s l t, inv s → step s l = some t → inv t)
    (balance : ∀ s l t, inv s → step s l = some t →
      (kind s l).toNat + falls t + rises s = (other s l).toNat + falls s + rises t)
    (start : inv s) (run : execute step s ls = some t) :
    countSteps step kind s ls + falls t + rises s = countSteps step other s ls + falls s + rises t := by
  induction ls generalizing s with
  | nil =>
    cases run
    rfl
  | cons l ls ih =>
    obtain ⟨u, moved, rest⟩ := execute_cons.mp run
    have first := balance s l u start moved
    have later := ih (preserved s l u start moved) rest
    rw [countSteps_cons moved, countSteps_cons moved]
    omega

theorem countSteps_map {T : Type} {step' : T → L → Option T} {kind' : T → L → Bool} {f : S → T}
    (same : ∀ s l, step' (f s) l = (step s l).map f) (kinds : ∀ s l, kind' (f s) l = kind s l) (s : S)
    (ls : List L) : countSteps step' kind' (f s) ls = countSteps step kind s ls := by
  induction ls generalizing s with
  | nil => rfl
  | cons l ls ih =>
    rw [countSteps, countSteps, same, kinds]
    cases step s l with
    | none => rfl
    | some t => exact congrArg _ (ih t)

theorem execute_replicate (stays : step s l = some s) (n : Nat) :
    execute step s (List.replicate n l) = some s := by
  induction n with
  | zero => rfl
  | succ n ih => exact execute_cons.mpr ⟨s, stays, ih⟩

theorem countSteps_replicate (stays : step s l = some s) (counts : kind s l = true) (n : Nat) :
    countSteps step kind s (List.replicate n l) = n := by
  induction n with
  | zero => rfl
  | succ n ih =>
    rw [List.replicate_succ, countSteps_cons stays, ih, counts]
    exact Nat.add_comm 1 n

/-! ## What the steps yield -/

section
variable {A : Type}

def gather (step : S → L → Option S) (yield : S → L → List A) : S → List L → List A
  | _, [] => []
  | s, l :: ls =>
    match step s l with
    | none => []
    | some t => yield s l ++ gather step yield t ls

theorem gather_snoc {yield : S → L → List A} (run : execute step s ls = some t) (moved : step t l = some u) :
    gather step yield s (ls ++ [l]) = gather step yield s ls ++ yield t l := by
  induction ls generalizing s with
  | nil =>
    cases run
    simp [gather, moved]
  | cons k ls ih =>
    obtain ⟨v, first, rest⟩ := execute_cons.mp run
    rw [List.cons_append, gather, gather, first]
    dsimp only
    rw [ih rest, List.append_assoc]

end

end MinimalVm.Semantics
