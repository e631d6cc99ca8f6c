/-! Accounting for a stream that is consumed out of order.

Items are read in order; one that is read is either taken at once or parked,
and a parked item may be taken later. Positions in the stream identify items,
so equal items stay apart. The ledger says that the positions taken, the
positions parked in arrival order and those not yet read partition the stream.
-/

set_option autoImplicit false

namespace MinimalVm.Semantics

variable {α : Type}

structure Ledger (items : List α) (taken parked : List Nat) (waiting unread : List α) : Prop where
  waits : parked.map (items[·]?) = waiting.map some
  arrival : parked.Pairwise (· < ·)
  partition : (taken ++ parked).Perm (List.range (taken.length + parked.length))
  rest : items.drop (taken.length + parked.length) = unread

namespace Ledger

variable {items waiting unread : List α} {taken parked : List Nat}

theorem start (items : List α) : Ledger items [] [] [] items :=
  ⟨rfl, .nil, .refl _, rfl⟩

theorem position_iff (ledger : Ledger items taken parked waiting unread) (i : Nat) :
    i ∈ taken ∨ i ∈ parked ↔ i < taken.length + parked.length := by
  rw [← List.mem_append, ledger.partition.mem_iff, List.mem_range]

theorem apart (ledger : Ledger items taken parked waiting unread) {i : Nat} (isParked : i ∈ parked) :
    i ∉ taken := by
  have distinct := ledger.partition.nodup_iff.mpr List.nodup_range
  exact fun isTaken => (List.nodup_append.mp distinct).2.2 i isTaken i isParked rfl

theorem parked_item (ledger : Ledger items taken parked waiting unread) {i : Nat} (isParked : i ∈ parked) :
    ∃ item ∈ waiting, items[i]? = some item := by
  have mapped : items[i]? ∈ waiting.map some := ledger.waits ▸ List.mem_map_of_mem isParked
  obtain ⟨item, member, same⟩ := List.mem_map.mp mapped
  exact ⟨item, member, same.symm⟩

theorem not_taken (ledger : Ledger items taken parked waiting unread) {i : Nat} {item : α}
    (present : items[i]? = some item) (free : i ∉ taken) :
    item ∈ waiting ∧ i < taken.length + parked.length ∨
      item ∈ unread ∧ taken.length + parked.length ≤ i := by
  by_cases read : i < taken.length + parked.length
  · have isParked := ((ledger.position_iff i).mpr read).resolve_left free
    obtain ⟨found, member, same⟩ := ledger.parked_item isParked
    rw [present] at same
    exact .inl ⟨Option.some.inj same ▸ member, read⟩
  · refine .inr ⟨?_, by omega⟩
    rw [← ledger.rest]
    refine List.mem_of_getElem? (i := i - (taken.length + parked.length)) ?_
    rw [List.getElem?_drop, ← present]
    congr 1
    omega

theorem next (ledger : Ledger items taken parked waiting unread) :
    items[taken.length + parked.length]? = unread.head? := by
  rw [← ledger.rest, List.head?_drop]

theorem park {item : α} (ledger : Ledger items taken parked waiting (item :: unread)) :
    Ledger items taken (parked ++ [taken.length + parked.length]) (waiting ++ [item]) unread where
  waits := by simp [ledger.waits, ledger.next]
  arrival := by
    rw [List.pairwise_append]
    refine ⟨ledger.arrival, List.pairwise_singleton _ _, ?_⟩
    intro i isParked j last
    rw [List.mem_singleton] at last
    exact last ▸ (ledger.position_iff i).mp (.inr isParked)
  partition := by
    rw [← List.append_assoc, List.length_append, List.length_singleton, ← Nat.add_assoc, List.range_succ]
    exact ledger.partition.append_right _
  rest := by
    rw [List.length_append, List.length_singleton, ← Nat.add_assoc, ← List.drop_drop, ledger.rest]
    rfl

theorem park_all (passed : List α) (ledger : Ledger items taken parked waiting (passed ++ unread)) :
    ∃ parked', Ledger items taken parked' (waiting ++ passed) unread := by
  induction passed generalizing parked waiting with
  | nil => exact ⟨parked, by simpa using ledger⟩
  | cons item passed ih =>
    obtain ⟨parked', result⟩ := ih ledger.park
    exact ⟨parked', by simpa using result⟩

theorem take_next {item : α} (ledger : Ledger items taken parked waiting (item :: unread)) :
    Ledger items (taken ++ [taken.length + parked.length]) parked waiting unread where
  waits := ledger.waits
  arrival := ledger.arrival
  partition := by
    have moved : (taken ++ [taken.length + parked.length] ++ parked).Perm
        (taken ++ parked ++ [taken.length + parked.length]) := by
      rw [List.append_assoc, List.append_assoc]
      exact List.perm_append_comm.append_left _
    rw [List.length_append, List.length_singleton, Nat.add_right_comm, List.range_succ]
    exact moved.trans (ledger.partition.append_right _)
  rest := by
    rw [List.length_append, List.length_singleton, Nat.add_right_comm, ← List.drop_drop, ledger.rest]
    rfl

theorem next_free {item : α} (ledger : Ledger items taken parked waiting (item :: unread)) :
    taken.length + parked.length ∉ taken := fun isTaken =>
  absurd ((ledger.position_iff _).mp (.inl isTaken)) (Nat.lt_irrefl _)

theorem take_waiting {before after : List α} {item : α}
    (ledger : Ledger items taken parked (before ++ item :: after) unread) :
    ∃ i parked', Ledger items (taken ++ [i]) parked' (before ++ after) unread ∧
      items[i]? = some item ∧ i ∉ taken ∧
      ∀ j < i, ∀ earlier, items[j]? = some earlier → j ∉ taken → earlier ∈ before := by
  have waits := ledger.waits
  rw [List.map_append, List.map_cons, List.map_eq_append_iff] at waits
  obtain ⟨first, rest, split, beforeWaits, tailWaits⟩ := waits
  obtain ⟨i, last, rfl, here, afterWaits⟩ := List.map_eq_cons_iff.mp tailWaits
  subst split
  have sorted := List.pairwise_append.mp ledger.arrival
  have moved : (taken ++ [i] ++ (first ++ last)).Perm (taken ++ (first ++ i :: last)) := by
    rw [List.append_assoc, List.singleton_append]
    exact List.perm_middle.symm.append_left _
  have count : (taken ++ [i]).length + (first ++ last).length =
      taken.length + (first ++ i :: last).length := by
    simp only [List.length_append, List.length_cons, List.length_nil]
    omega
  refine ⟨i, first ++ last, ⟨?_, ?_, ?_, ?_⟩, here, ledger.apart (by simp), ?_⟩
  · rw [List.map_append, beforeWaits, afterWaits, List.map_append]
  · exact List.pairwise_append.mpr ⟨sorted.1, (List.pairwise_cons.mp sorted.2.1).2,
      fun a inFirst b inLast => sorted.2.2 a inFirst b (List.mem_cons_of_mem i inLast)⟩
  · exact count ▸ moved.trans ledger.partition
  · exact count ▸ ledger.rest
  · -- Parked positions are in arrival order, so an earlier one stands before it.
    intro j before_i earlier present free
    have read := (ledger.position_iff i).mp (.inr (by simp))
    have isParked := ((ledger.position_iff j).mpr (by omega)).resolve_left free
    have inFirst : j ∈ first := by
      rcases List.mem_append.mp isParked with inFirst | inTail
      · exact inFirst
      · rcases List.mem_cons.mp inTail with same | inLast
        · omega
        · have := (List.pairwise_cons.mp sorted.2.1).1 j inLast
          omega
    have mapped : items[j]? ∈ before.map some := beforeWaits ▸ List.mem_map_of_mem inFirst
    simpa [present] using mapped

/-- What is left over by one ledger is accounted for by another. -/
theorem append {taken' parked' : List Nat} {waiting' unread' : List α}
    (first : Ledger items taken parked waiting unread) (second : Ledger unread taken' parked' waiting' unread') :
    let n := taken.length + parked.length
    Ledger items (taken ++ taken'.map (n + ·)) (parked ++ parked'.map (n + ·)) (waiting ++ waiting') unread' := by
  intro n
  have count : (taken ++ taken'.map (n + ·)).length + (parked ++ parked'.map (n + ·)).length =
      n + (taken'.length + parked'.length) := by
    simp only [List.length_append, List.length_map, n]
    omega
  constructor
  · rw [List.map_append, List.map_append, first.waits, ← second.waits, List.map_map]
    congr 1
    apply List.map_congr_left
    intro i _
    rw [← first.rest, List.getElem?_drop]
    rfl
  · refine List.pairwise_append.mpr ⟨first.arrival, ?_, ?_⟩
    · exact List.pairwise_map.mpr (second.arrival.imp fun before => Nat.add_lt_add_left before n)
    · intro i isParked j later
      obtain ⟨k, -, rfl⟩ := List.mem_map.mp later
      have read := (first.position_iff i).mp (.inr isParked)
      exact Nat.lt_of_lt_of_le read (Nat.le_add_right n k)
  · rw [count, List.range_add]
    have middle : (taken ++ taken'.map (n + ·) ++ (parked ++ parked'.map (n + ·))).Perm
        ((taken ++ parked) ++ (taken' ++ parked').map (n + ·)) := by
      rw [List.map_append, List.append_assoc, List.append_assoc]
      refine List.Perm.append_left _ ?_
      rw [← List.append_assoc, ← List.append_assoc]
      exact List.perm_append_comm.append_right _
    exact middle.trans (first.partition.append (second.partition.map _))
  · rw [count, ← List.drop_drop, first.rest, second.rest]

end Ledger
end MinimalVm.Semantics
