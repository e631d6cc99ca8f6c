import MinimalVm.Text.Segments

/-! Cutting a list after each separator.

Each piece but the last ends in the only separator it has, and the last one may
be without.
-/

set_option autoImplicit false

namespace MinimalVm.Text

variable {α : Type} [DecidableEq α]

def cutAfter (sep : α) : List α → List (List α)
  | [] => []
  | a :: rest =>
    if a = sep then [a] :: cutAfter sep rest
    else
      match cutAfter sep rest with
      | [] => [[a]]
      | piece :: pieces => (a :: piece) :: pieces

variable {sep : α}

@[simp] theorem cutAfter_nil : cutAfter sep [] = [] := rfl

theorem cutAfter_cons_other {a : α} (other : a ≠ sep) {rest piece : List α} {pieces : List (List α)}
    (later : cutAfter sep rest = piece :: pieces) : cutAfter sep (a :: rest) = (a :: piece) :: pieces := by
  rw [cutAfter, if_neg other, later]

theorem cutAfter_free {w : List α} (absent : sep ∉ w) (nonempty : w ≠ []) : cutAfter sep w = [w] := by
  induction w with
  | nil => exact absurd rfl nonempty
  | cons a w ih =>
    have other : a ≠ sep := fun same => absent (same ▸ List.mem_cons_self)
    by_cases last : w = []
    · simp [last, cutAfter, other]
    · exact cutAfter_cons_other other (ih (fun member => absent (List.mem_cons_of_mem a member)) last)

theorem cutAfter_line {w t : List α} (absent : sep ∉ w) :
    cutAfter sep (w ++ sep :: t) = (w ++ [sep]) :: cutAfter sep t := by
  induction w with
  | nil => simp [cutAfter]
  | cons a w ih =>
    have other : a ≠ sep := fun same => absent (same ▸ List.mem_cons_self)
    exact cutAfter_cons_other other (ih fun member => absent (List.mem_cons_of_mem a member))

theorem cutAfter_terminated {l piece : List α} {first rest : List (List α)}
    (cut : cutAfter sep l = first ++ piece :: rest) (more : rest ≠ []) :
    ∃ w, sep ∉ w ∧ piece = w ++ [sep] := by
  induction l using lines_induction sep generalizing first with
  | last w absent =>
    by_cases empty : w = []
    · simp [empty] at cut
    · rw [cutAfter_free absent empty] at cut
      rcases List.cons_eq_append_iff.mp cut with ⟨-, same⟩ | ⟨_, -, impossible⟩
      · exact absurd (List.cons.inj same).2 more
      · simp at impossible
  | line w t absent ih =>
    rw [cutAfter_line absent] at cut
    rcases List.cons_eq_append_iff.mp cut with ⟨-, same⟩ | ⟨middle, -, later⟩
    · exact ⟨w, absent, (List.cons.inj same).1⟩
    · exact ih later

end MinimalVm.Text
