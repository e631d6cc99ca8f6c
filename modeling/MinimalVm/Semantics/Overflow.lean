/-! Unsigned arithmetic that may overflow.

A release build wraps where a result does not fit, and a debug build panics.
The operations of a debug build are partial, so that a computation in which
they are all defined is exact in either build.
-/

set_option autoImplicit false

namespace MinimalVm.Semantics

def add? (a b : UInt64) : Option UInt64 := if a.toNat + b.toNat < UInt64.size then some (a + b) else none

def sub? (a b : UInt64) : Option UInt64 := if b ≤ a then some (a - b) else none

def mul? (a b : UInt64) : Option UInt64 := if a.toNat * b.toNat < UInt64.size then some (a * b) else none

section
variable {a b : UInt64}

theorem toNat_add_of_fits (fits : a.toNat + b.toNat < UInt64.size) : (a + b).toNat = a.toNat + b.toNat := by
  rw [UInt64.toNat_add]
  exact Nat.mod_eq_of_lt fits

theorem toNat_mul_of_fits (fits : a.toNat * b.toNat < UInt64.size) : (a * b).toNat = a.toNat * b.toNat := by
  rw [UInt64.toNat_mul]
  exact Nat.mod_eq_of_lt fits

theorem add?_of_fits (fits : a.toNat + b.toNat < UInt64.size) : add? a b = some (a + b) := if_pos fits

theorem add?_eq_none : add? a b = none ↔ UInt64.size ≤ a.toNat + b.toNat := by
  unfold add?
  split
  · rename_i fits
    exact iff_of_false nofun (Nat.not_le_of_lt fits)
  · rename_i overflows
    exact iff_of_true rfl (Nat.le_of_not_lt overflows)

theorem sub?_of_le (le : b ≤ a) : sub? a b = some (a - b) := if_pos le

theorem mul?_of_fits (fits : a.toNat * b.toNat < UInt64.size) : mul? a b = some (a * b) := if_pos fits

theorem mul?_eq_none : mul? a b = none ↔ UInt64.size ≤ a.toNat * b.toNat := by
  unfold mul?
  split
  · rename_i fits
    exact iff_of_false nofun (Nat.not_le_of_lt fits)
  · rename_i overflows
    exact iff_of_true rfl (Nat.le_of_not_lt overflows)

end

/-! ## Searching for a value -/

section
variable {A B : Type} {checked : A → Option (Option B)} {f : A → Option B} {l : List A}

theorem findSomeM?_eq_some (alike : ∀ a, checked a = some (f a) ∨ checked a = none) :
    l.findSomeM? checked = some (l.findSome? f) ↔
      ∀ first a rest, l = first ++ a :: rest → (∀ b ∈ first, f b = none) → checked a = some (f a) := by
  -- The induction is on the list: its head panics, is found, or makes no difference.
  induction l with
  | nil =>
    refine iff_of_true rfl ?_
    intro first a rest split
    cases first <;> cases split
  | cons c l ih =>
    rw [List.findSomeM?_cons, List.findSome?_cons]
    rcases alike c with same | panics
    · rw [same]
      cases found : f c with
      | some b =>
        refine iff_of_true rfl ?_
        intro first a rest split earlier
        cases first with
        | nil =>
          obtain ⟨rfl, -⟩ := List.cons.inj split
          exact same
        | cons d first =>
          obtain ⟨rfl, -⟩ := List.cons.inj split
          cases found.symm.trans (earlier c List.mem_cons_self)
      | none =>
        refine Iff.trans ih ⟨fun later => ?_, fun all => ?_⟩
        · intro first a rest split earlier
          cases first with
          | nil =>
            obtain ⟨rfl, -⟩ := List.cons.inj split
            exact same
          | cons d first =>
            obtain ⟨rfl, rfl⟩ := List.cons.inj split
            exact later first a rest rfl fun b member => earlier b (List.mem_cons_of_mem c member)
        · intro first a rest split earlier
          exact all (c :: first) a rest (congrArg (c :: ·) split) (List.forall_mem_cons.mpr ⟨found, earlier⟩)
    · rw [panics]
      refine iff_of_false nofun fun all => ?_
      cases panics.symm.trans (all [] c l rfl nofun)

end

end MinimalVm.Semantics
