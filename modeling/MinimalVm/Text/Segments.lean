/-! Cutting a list at a separator, as a line reader sees it.

Empty lines carry nothing, so a text is read as its maximal non-empty runs
without the separator. A text that may still grow is divided into the runs
that are already terminated and a remainder that further input extends.
-/

set_option autoImplicit false

namespace MinimalVm.Text

variable {α : Type} [DecidableEq α]

/-- The maximal non-empty runs without the separator, in order. -/
def segments (sep : α) (l : List α) : List (List α) := (l.splitOn sep).filter (· ≠ [])

/-- The non-empty runs that a separator already ends. -/
def terminated (sep : α) (l : List α) : List (List α) := (l.splitOn sep).dropLast.filter (· ≠ [])

def remainder (sep : α) (l : List α) : List α := (l.splitOn sep).getLastD []

def position (sep : α) (l : List α) : Option Nat := l.findIdx? (· == sep)

variable {sep : α}

theorem position_none {l : List α} : position sep l = none ↔ sep ∉ l := by
  rw [position, List.findIdx?_eq_none_iff]
  constructor
  · intro absent member
    simpa using absent sep member
  · intro absent a member
    simpa using fun same : a = sep => absent (same ▸ member)

theorem position_some {l : List α} {ix : Nat} (found : position sep l = some ix) :
    sep ∉ l.take ix ∧ l = l.take ix ++ sep :: l.drop (ix + 1) := by
  obtain ⟨bound, hit, earlier⟩ := List.findIdx?_eq_some_iff_getElem.mp found
  have same : l[ix] = sep := by simpa using hit
  constructor
  · intro member
    obtain ⟨j, inTake, value⟩ := List.mem_iff_getElem.mp member
    rw [List.getElem_take] at value
    rw [List.length_take] at inTake
    have miss := earlier j (by omega)
    simp [value] at miss
  · rw [← same, List.getElem_cons_drop, List.take_append_drop]

theorem position_take_ne {l : List α} {ix : Nat} (found : position sep l = some ix) (positive : ix ≠ 0) :
    l.take ix ≠ [] := by
  intro empty
  obtain ⟨-, split⟩ := position_some found
  rcases List.take_eq_nil_iff.mp empty with zero | none
  · exact positive zero
  · simp [none] at split

/-- Induction over the lines of a text: every list is free of the separator or
is a free run, a separator and a shorter text. -/
theorem lines_induction (sep : α) {P : List α → Prop} (last : ∀ w, sep ∉ w → P w)
    (line : ∀ w t, sep ∉ w → P t → P (w ++ sep :: t)) (l : List α) : P l := by
  by_cases member : sep ∈ l
  · obtain ⟨w, t, split, absent⟩ := List.eq_append_cons_of_mem member
    have shorter : t.length < l.length := by simp [split]; omega
    exact split ▸ line w t absent (lines_induction sep last line t)
  · exact last l member
termination_by l.length

theorem segments_free {w : List α} (absent : sep ∉ w) (nonempty : w ≠ []) : segments sep w = [w] := by
  simp [segments, List.splitOn_eq_singleton absent, nonempty]

@[simp] theorem segments_nil : segments sep ([] : List α) = [] := rfl

theorem segments_line {w t : List α} (absent : sep ∉ w) :
    segments sep (w ++ sep :: t) = (if w = [] then [] else [w]) ++ segments sep t := by
  rw [segments, List.splitOn_append_cons_self_of_not_mem absent]
  by_cases empty : w = []
  · simp [segments, empty]
  · simp [segments, empty]

theorem terminated_free {w : List α} (absent : sep ∉ w) : terminated sep w = [] := by
  simp [terminated, List.splitOn_eq_singleton absent]

theorem terminated_line {w t : List α} (absent : sep ∉ w) :
    terminated sep (w ++ sep :: t) = (if w = [] then [] else [w]) ++ terminated sep t := by
  rw [terminated, List.splitOn_append_cons_self_of_not_mem absent, List.dropLast_cons_of_ne_nil (List.splitOn_ne_nil sep t)]
  by_cases empty : w = []
  · simp [terminated, empty]
  · simp [terminated, empty]

theorem remainder_free {w : List α} (absent : sep ∉ w) : remainder sep w = w := by
  simp [remainder, List.splitOn_eq_singleton absent]

theorem remainder_line {w t : List α} (absent : sep ∉ w) :
    remainder sep (w ++ sep :: t) = remainder sep t := by
  rw [remainder, List.splitOn_append_cons_self_of_not_mem absent, remainder]
  cases rest : t.splitOn sep with
  | nil => exact absurd rest (List.splitOn_ne_nil sep t)
  | cons first others => rfl

/-- Input that arrives later only ever extends the remainder. -/
theorem segments_append (l r : List α) :
    segments sep (l ++ r) = terminated sep l ++ segments sep (remainder sep l ++ r) := by
  induction l using lines_induction sep with
  | last w absent => rw [terminated_free absent, remainder_free absent, List.nil_append]
  | line w t absent ih =>
    rw [terminated_line absent, remainder_line absent, List.append_assoc, List.cons_append,
      segments_line absent, ih, List.append_assoc]

end MinimalVm.Text
