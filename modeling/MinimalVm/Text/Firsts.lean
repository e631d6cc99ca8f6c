import Mathlib.Data.List.Nodup

/-! The first element of each kind in a list.

The kind of an element is its key. A scan that remembers the keys it has passed
keeps just the elements that no earlier one shares a key with.
-/

set_option autoImplicit false

namespace MinimalVm.Text

variable {α κ : Type} [DecidableEq κ]

/-- The first elements of the kinds that have not been seen. -/
def firstsAfter (key : α → κ) : (seen : List κ) → List α → List α
  | _, [] => []
  | seen, a :: l =>
    if key a ∈ seen then firstsAfter key seen l else a :: firstsAfter key (seen ++ [key a]) l

def firsts (key : α → κ) (l : List α) : List α := firstsAfter key [] l

variable {key : α → κ} {seen : List κ} {l : List α} {a : α}

theorem firstsAfter_seen (member : key a ∈ seen) (l : List α) :
    firstsAfter key seen (a :: l) = firstsAfter key seen l := by
  rw [firstsAfter, if_pos member]

theorem firstsAfter_unseen (absent : key a ∉ seen) (l : List α) :
    firstsAfter key seen (a :: l) = a :: firstsAfter key (seen ++ [key a]) l := by
  rw [firstsAfter, if_neg absent]

theorem firstsAfter_sublist (key : α → κ) (seen : List κ) (l : List α) : (firstsAfter key seen l).Sublist l := by
  induction l generalizing seen with
  | nil => exact List.Sublist.refl []
  | cons a l ih =>
    by_cases member : key a ∈ seen
    · rw [firstsAfter_seen member]
      exact (ih seen).cons a
    · rw [firstsAfter_unseen member]
      exact (ih (seen ++ [key a])).cons_cons a

theorem mem_firstsAfter :
    a ∈ firstsAfter key seen l ↔
      key a ∉ seen ∧ ∃ first rest, l = first ++ a :: rest ∧ ∀ b ∈ first, key b ≠ key a := by
  -- The kinds that have been seen grow along the list.
  induction l generalizing seen with
  | nil => simp [firstsAfter]
  | cons b l ih =>
    constructor
    · intro kept
      by_cases member : key b ∈ seen
      · rw [firstsAfter_seen member, ih] at kept
        obtain ⟨absent, first, rest, rfl, earlier⟩ := kept
        refine ⟨absent, b :: first, rest, rfl, List.forall_mem_cons.mpr ⟨fun same => ?_, earlier⟩⟩
        exact absent (same ▸ member)
      · rw [firstsAfter_unseen member, List.mem_cons, ih] at kept
        rcases kept with rfl | ⟨absent, first, rest, rfl, earlier⟩
        · exact ⟨member, [], l, rfl, nofun⟩
        · rw [List.mem_append, not_or] at absent
          refine ⟨absent.1, b :: first, rest, rfl, List.forall_mem_cons.mpr ⟨fun same => ?_, earlier⟩⟩
          exact absent.2 (List.mem_singleton.mpr same.symm)
    · rintro ⟨absent, first, rest, split, earlier⟩
      cases first with
      | nil =>
        obtain ⟨rfl, -⟩ := List.cons.inj split
        rw [firstsAfter_unseen absent]
        exact List.mem_cons_self
      | cons c first =>
        obtain ⟨rfl, rfl⟩ := List.cons.inj split
        obtain ⟨apart, earlier⟩ := List.forall_mem_cons.mp earlier
        by_cases member : key b ∈ seen
        · rw [firstsAfter_seen member, ih]
          exact ⟨absent, first, rest, rfl, earlier⟩
        · rw [firstsAfter_unseen member, List.mem_cons, ih]
          refine .inr ⟨?_, first, rest, rfl, earlier⟩
          rw [List.mem_append, List.mem_singleton, not_or]
          exact ⟨absent, Ne.symm apart⟩

theorem mem_firsts : a ∈ firsts key l ↔ ∃ first rest, l = first ++ a :: rest ∧ ∀ b ∈ first, key b ≠ key a := by
  rw [firsts, mem_firstsAfter]
  exact and_iff_right List.not_mem_nil

theorem mem_firsts_filterMap {β : Type} {f : β → Option α} {l : List β} :
    a ∈ firsts key (l.filterMap f) ↔ ∃ first x rest, l = first ++ x :: rest ∧ f x = some a ∧
      ∀ y ∈ first, ∀ b, f y = some b → key b ≠ key a := by
  rw [mem_firsts]
  constructor
  · rintro ⟨yielded, later, split, earlier⟩
    obtain ⟨first, others, rfl, rfl, tail⟩ := List.filterMap_eq_append_iff.mp split
    obtain ⟨middle, x, rest, rfl, none, yields, -⟩ := List.filterMap_eq_cons_iff.mp tail
    refine ⟨first ++ middle, x, rest, List.append_assoc .. |>.symm, yields, fun y member b yieldsB => ?_⟩
    rcases List.mem_append.mp member with before | between
    · exact earlier b (List.mem_filterMap.mpr ⟨y, before, yieldsB⟩)
    · cases (none y between).symm.trans yieldsB
  · rintro ⟨first, x, rest, rfl, yields, earlier⟩
    refine ⟨first.filterMap f, rest.filterMap f, ?_, fun b member => ?_⟩
    · rw [List.filterMap_append, List.filterMap_cons_some yields]
    · obtain ⟨y, before, yieldsB⟩ := List.mem_filterMap.mp member
      exact earlier y before b yieldsB

theorem firsts_subset (member : a ∈ firsts key l) : a ∈ l := (firstsAfter_sublist key [] l).subset member

/-- No two elements that are kept are of one kind. -/
theorem firsts_keys (key : α → κ) (l : List α) : ((firsts key l).map key).Nodup := by
  suffices apart : ∀ seen, ((firstsAfter key seen l).map key).Nodup from apart []
  induction l with
  | nil =>
    intro seen
    exact List.nodup_nil
  | cons a l ih =>
    intro seen
    by_cases member : key a ∈ seen
    · rw [firstsAfter_seen member]
      exact ih seen
    · rw [firstsAfter_unseen member, List.map_cons, List.nodup_cons]
      refine ⟨fun again => ?_, ih (seen ++ [key a])⟩
      obtain ⟨b, kept, same⟩ := List.mem_map.mp again
      exact (mem_firstsAfter.mp kept).1 (List.mem_append_right seen (List.mem_singleton.mpr same))

theorem firsts_complete (member : a ∈ l) : ∃ b ∈ firsts key l, key b = key a := by
  induction l with
  | nil => cases member
  | cons c l ih =>
    by_cases same : key c = key a
    · exact ⟨c, mem_firsts.mpr ⟨[], l, rfl, nofun⟩, same⟩
    · have later : a ∈ l := (List.mem_cons.mp member).resolve_left fun equal => same (equal ▸ rfl)
      obtain ⟨b, kept, equal⟩ := ih later
      obtain ⟨first, rest, rfl, earlier⟩ := mem_firsts.mp kept
      refine ⟨b, mem_firsts.mpr ⟨c :: first, rest, rfl, ?_⟩, equal⟩
      exact List.forall_mem_cons.mpr ⟨equal ▸ same, earlier⟩

theorem firsts_unique {b : α} (keptA : a ∈ firsts key l) (keptB : b ∈ firsts key l) (same : key a = key b) : a = b :=
  List.inj_on_of_nodup_map (firsts_keys key l) keptA keptB same

end MinimalVm.Text
