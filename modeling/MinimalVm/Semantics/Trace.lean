/-! Traces that only grow: what has been observed of a run, oldest first.

A property of the order of observations speaks about every way to cut a trace
at an occurrence. Extending the trace adds occurrences at its end and extends
what follows the old ones.
-/

set_option autoImplicit false

namespace MinimalVm.Semantics

variable {α : Type} {p q r : α → Prop} {first rest old new : List α} {x y : α}

theorem occurrence_append (split : old ++ new = first ++ x :: rest) :
    (∃ middle, old = first ++ x :: middle ∧ rest = middle ++ new) ∨
      ∃ middle, first = old ++ middle ∧ new = middle ++ x :: rest := by
  rcases List.append_eq_append_iff.mp split with ⟨middle, before, tail⟩ | ⟨middle, before, tail⟩
  · exact .inr ⟨middle, before, tail⟩
  · rcases List.cons_eq_append_iff.mp tail with ⟨rfl, same⟩ | ⟨middle', rfl, same⟩
    · exact .inr ⟨[], by simpa using before.symm, same⟩
    · exact .inl ⟨middle', before, same⟩

/-- Every p is followed by some q. -/
def Followed (p q : α → Prop) (trace : List α) : Prop :=
  ∀ first x rest, trace = first ++ x :: rest → p x → ∃ z ∈ rest, q z

/-- Between every p and every later r there is some q. -/
def Separated (p q r : α → Prop) (trace : List α) : Prop :=
  ∀ first x middle y last, trace = first ++ x :: (middle ++ y :: last) → p x → r y → ∃ z ∈ middle, q z

theorem followed_of_none {trace : List α} (none : ∀ z ∈ trace, ¬ p z) : Followed p q trace := by
  rintro first x rest rfl isP
  exact absurd isP (none x (by simp))

theorem separated_of_none {trace : List α} (none : ∀ z ∈ trace, ¬ r z) : Separated p q r trace := by
  rintro first x middle y last rfl - isR
  exact absurd isR (none y (by simp))

theorem separated_of_no_first {trace : List α} (none : ∀ z ∈ trace, ¬ p z) : Separated p q r trace := by
  rintro first x middle y last rfl isP -
  exact absurd isP (none x (by simp))

theorem Followed.append (before : Followed p q old) (after : Followed p q new) : Followed p q (old ++ new) := by
  intro first x rest split isP
  rcases occurrence_append split with ⟨middle, earlier, rfl⟩ | ⟨middle, rfl, later⟩
  · obtain ⟨z, member, isQ⟩ := before first x middle earlier isP
    exact ⟨z, List.mem_append_left new member, isQ⟩
  · exact after middle x rest later isP

theorem Followed.cons (found : ∃ z ∈ rest, q z) (after : Followed p q rest) : Followed p q (x :: rest) := by
  intro first y last split isP
  rcases List.cons_eq_append_iff.mp split with ⟨rfl, same⟩ | ⟨middle, rfl, same⟩
  · cases same
    exact found
  · exact after middle y last same isP

theorem Separated.append (before : Separated p q r old) (quiet : ∀ z ∈ new, ¬ r z) :
    Separated p q r (old ++ new) := by
  intro first x middle y last split isP isR
  rw [← List.cons_append, ← List.append_assoc] at split
  rcases occurrence_append split with ⟨between, earlier, rfl⟩ | ⟨between, -, later⟩
  · rw [List.append_assoc, List.cons_append] at earlier
    exact before first x middle y between earlier isP isR
  · exact absurd isR (quiet y (by simp [later]))

/-- An r may come once every p has been followed by some q. -/
theorem Separated.snoc (before : Separated p q r old) (followed : Followed p q old) :
    Separated p q r (old ++ [y]) := by
  intro first x middle z last split isP isR
  rw [← List.cons_append, ← List.append_assoc] at split
  rcases occurrence_append split with ⟨between, earlier, rfl⟩ | ⟨between, earlier, later⟩
  · rw [List.append_assoc, List.cons_append] at earlier
    exact before first x middle z between earlier isP isR
  · -- The new observation is the r, so all that follows x lies between them.
    rcases List.cons_eq_append_iff.mp later with ⟨rfl, -⟩ | ⟨_, -, impossible⟩
    · rw [List.append_nil] at earlier
      exact followed first x middle earlier.symm isP
    · simp at impossible

end MinimalVm.Semantics
