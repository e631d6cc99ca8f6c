import MinimalVm.Liveness.Counters
import Mathlib.Data.List.Forall2
import Mathlib.Tactic.Linarith
import Mathlib.Tactic.Ring

/-! The CPU load against the share of the time that was busy.

A total that runs backwards saturates to nothing. Idle time that runs backwards
while the total advances makes more busy time than time, and the clamp turns it
into a full load.
-/

set_option autoImplicit false

namespace MinimalVm.Liveness

open MinimalVm.Text ProcStat

/-- What a counter went up by, which is negative if it ran backwards. -/
def increase (first second : UInt64) : Rat := second.toNat - first.toNat

/-- The busy share of the time between two snapshots, in percent. -/
def busyShare (first second : ProcStat) : Rat :=
  100 * max 0 (increase first.total second.total - increase first.idle second.idle) / increase first.total second.total

def quotient (first second : ProcStat) : Rat :=
  ((saturatingSub (second.total - second.idle) (first.total - first.idle)).toNat : Rat) /
    (saturatingSub second.total first.total).toNat * 100

variable {first second : ProcStat}

theorem increase_pos {a b : UInt64} (more : a < b) : 0 < increase a b := by
  have lt : (a.toNat : Rat) < b.toNat := by exact_mod_cast UInt64.lt_iff_toNat_lt.mp more
  unfold increase
  linarith

theorem increase_nonneg {a b : UInt64} : 0 ≤ increase a b ↔ a ≤ b := by
  rw [UInt64.le_iff_toNat_le, ← Nat.cast_le (α := Rat)]
  exact sub_nonneg

theorem saturatingSub_cast (a b : UInt64) : ((saturatingSub b a).toNat : Rat) = max 0 (increase a b) := by
  rw [saturatingSub_toNat]
  unfold increase
  rcases Nat.le_total a.toNat b.toNat with le | ge
  · rw [Nat.cast_sub le, max_eq_right (by rw [sub_nonneg]; exact_mod_cast le)]
  · rw [Nat.sub_eq_zero_of_le ge, max_eq_left (by rw [sub_nonpos]; exact_mod_cast ge)]
    rfl

theorem increase_sub {a b c d : UInt64} (before : b ≤ a) (after : d ≤ c) :
    increase (a - b) (c - d) = increase a c - increase b d := by
  unfold increase
  rw [UInt64.toNat_sub_of_le _ _ before, UInt64.toNat_sub_of_le _ _ after,
    Nat.cast_sub (UInt64.le_iff_toNat_le.mp before), Nat.cast_sub (UInt64.le_iff_toNat_le.mp after)]
  ring

theorem cpuPercent_still (still : ¬ first.total < second.total) : cpuPercent first second = 0 := by
  have none : saturatingSub second.total first.total = 0 := by
    apply UInt64.toNat_inj.mp
    rw [saturatingSub_toNat]
    exact Nat.sub_eq_zero_of_le (UInt64.not_lt.mp still)
  unfold cpuPercent
  rw [if_pos none]

theorem cpuPercent_advanced (advanced : first.total < second.total) :
    cpuPercent first second = max 0 (min (quotient first second) 100) := by
  have some : saturatingSub second.total first.total ≠ 0 := by
    intro none
    have zero : second.total.toNat - first.total.toNat = 0 := by
      rw [← saturatingSub_toNat, none]
      rfl
    have lt : first.total.toNat < second.total.toNat := advanced
    omega
  unfold cpuPercent quotient
  rw [if_neg some]

/-- The two differences that saturate are those of the busy share. -/
theorem quotient_eq (before : first.idle ≤ first.total) (after : second.idle ≤ second.total)
    (advanced : first.total < second.total) : quotient first second = busyShare first second := by
  have positive := increase_pos advanced
  unfold quotient busyShare
  rw [saturatingSub_cast, saturatingSub_cast, increase_sub before after, max_eq_right positive.le]
  ring

theorem busyShare_nonneg (advanced : first.total < second.total) : 0 ≤ busyShare first second := by
  have hundred : (0 : Rat) ≤ 100 := by norm_num
  exact div_nonneg (mul_nonneg hundred (le_max_left _ _)) (increase_pos advanced).le

theorem busyShare_le (advanced : first.total < second.total) : busyShare first second ≤ 100 ↔ first.idle ≤ second.idle := by
  have positive := increase_pos advanced
  rw [← increase_nonneg]
  unfold busyShare
  rw [div_le_iff₀ positive, mul_le_mul_iff_right₀ (by norm_num), max_le_iff]
  constructor
  · rintro ⟨-, le⟩
    linarith
  · intro nonneg
    constructor
    · exact positive.le
    · linarith

theorem cpuPercent_share (before : first.idle ≤ first.total) (after : second.idle ≤ second.total)
    (advanced : first.total < second.total) (idle : first.idle ≤ second.idle) :
    cpuPercent first second = busyShare first second := by
  have most := (busyShare_le advanced).mpr idle
  rw [cpuPercent_advanced advanced, quotient_eq before after advanced, min_eq_left most,
    max_eq_right (busyShare_nonneg advanced)]

theorem cpuPercent_full (before : first.idle ≤ first.total) (after : second.idle ≤ second.total)
    (advanced : first.total < second.total) (backwards : second.idle < first.idle) : cpuPercent first second = 100 := by
  have more : 100 < busyShare first second := by
    apply lt_of_not_ge
    rw [busyShare_le advanced]
    exact UInt64.not_le.mpr backwards
  rw [cpuPercent_advanced advanced, quotient_eq before after advanced, min_eq_right more.le]
  norm_num

/-- The load is the busy share where both counters went on and nothing elsewhere,
just if idle time does not run backwards while the total advances. -/
theorem load_share (before : first.idle ≤ first.total) (after : second.idle ≤ second.total) :
    ((first.total < second.total ∧ first.idle ≤ second.idle →
        cpuPercent first second = busyShare first second ∧ quotient first second = busyShare first second ∧
          0 ≤ busyShare first second ∧ busyShare first second ≤ 100) ∧
      (¬ (first.total < second.total ∧ first.idle ≤ second.idle) → cpuPercent first second = 0)) ↔
      ¬ (first.total < second.total ∧ second.idle < first.idle) := by
  constructor
  · rintro ⟨-, otherwise⟩ ⟨advanced, backwards⟩
    have full := cpuPercent_full before after advanced backwards
    have none : cpuPercent first second = 0 := by
      apply otherwise
      rintro ⟨-, idle⟩
      exact UInt64.not_le.mpr backwards idle
    rw [full] at none
    norm_num at none
  · intro fine
    constructor
    · rintro ⟨advanced, idle⟩
      exact ⟨cpuPercent_share before after advanced idle, quotient_eq before after advanced,
        busyShare_nonneg advanced, (busyShare_le advanced).mpr idle⟩
    · intro otherwise
      apply cpuPercent_still
      intro advanced
      -- The total advanced: either both counters went on or idle time ran backwards.
      by_cases idle : first.idle ≤ second.idle
      · exact otherwise ⟨advanced, idle⟩
      · exact fine ⟨advanced, UInt64.not_le.mp idle⟩

theorem load_share_half : cpuPercent ⟨100, 80⟩ ⟨200, 130⟩ = busyShare ⟨100, 80⟩ ⟨200, 130⟩ :=
  ((@load_share ⟨100, 80⟩ ⟨200, 130⟩ (by decide) (by decide)).mpr (by decide)).1 (by decide) |>.1

/-- Idle time that runs backwards is a full load. -/
theorem load_backwards :
    ¬ (¬ ((100 : UInt64) < 200 ∧ (80 : UInt64) ≤ 50) → cpuPercent ⟨100, 80⟩ ⟨200, 50⟩ = 0) ∧
      cpuPercent ⟨100, 80⟩ ⟨200, 50⟩ = 100 := by
  decide +kernel

/-! ## Guest time -/

/-- The counters of an aggregate line. The kernel has counted `guest` in `user`
and `guestNice` in `nice` already. -/
structure Counters where
  user : UInt64
  nice : UInt64
  system : UInt64
  idle : UInt64
  iowait : UInt64
  irq : UInt64
  softirq : UInt64
  steal : UInt64
  guest : UInt64
  guestNice : UInt64
  deriving DecidableEq, Repr

namespace Counters

def values (c : Counters) : List UInt64 :=
  [c.user, c.nice, c.system, c.idle, c.iowait, c.irq, c.softirq, c.steal, c.guest, c.guestNice]

def busy (c : Counters) : Nat :=
  c.user.toNat + c.nice.toNat + c.system.toNat + c.irq.toNat + c.softirq.toNat + c.steal.toNat

def idling (c : Counters) : Nat := c.idle.toNat + c.iowait.toNat

def guests (c : Counters) : Nat := c.guest.toNat + c.guestNice.toNat

def elapsed (c : Counters) : Nat := c.busy + c.idling

def Later (a b : Counters) : Prop := List.Forall₂ (· ≤ ·) a.values b.values

theorem totalOf_values (c : Counters) : totalOf c.values = c.elapsed + c.guests := by
  simp only [values, totalOf, elapsed, busy, idling, guests]
  omega

theorem idleOf_values (c : Counters) : idleOf 0 c.values = c.idling := by
  simp [values, idleOf, idling]

theorem Later.sums {a b : Counters} (later : Later a b) :
    a.busy ≤ b.busy ∧ a.idling ≤ b.idling ∧ a.guests ≤ b.guests := by
  simp only [Later, values, List.forall₂_cons, List.forall₂_nil_left_iff, UInt64.le_iff_toNat_le] at later
  simp only [busy, idling, guests]
  omega

theorem elapsed_increase (a b : Counters) :
    ((b.elapsed : Rat) - a.elapsed) = ((b.busy : Rat) - a.busy) + (b.idling - a.idling) := by
  rw [elapsed, elapsed]
  push_cast
  ring

theorem parse_counters {line : Text} {c : Counters} (reads : numbers line = some c.values) {p : ProcStat} :
    parse line = some p ↔ p.total.toNat = c.elapsed + c.guests ∧ p.idle.toNat = c.idling := by
  rw [← totalOf_values, ← idleOf_values, parse_some]
  constructor
  · rintro ⟨values, same, sums⟩
    cases reads.symm.trans same
    exact sums
  · exact fun sums => ⟨c.values, reads, sums⟩

theorem parses_counters {line : Text} {c : Counters} (reads : numbers line = some c.values) :
    (∃ p, parse line = some p) ↔ c.elapsed + c.guests < UInt64.size := by
  rw [← totalOf_values, ← Option.ne_none_iff_exists', ne_eq, parse_none]
  constructor
  · intro parses
    apply Nat.lt_of_not_le
    intro large
    apply parses
    intro values same
    cases reads.symm.trans same
    exact large
  · exact fun small large => Nat.not_le_of_lt small (large _ reads)

end Counters

/-- Guest time that is added to both sides of a share leaves it alone just if
there is none of it, or nothing idle. -/
theorem share_guest {busy idle guest : Rat} (nonneg : 0 ≤ guest) (some : 0 < busy + idle) :
    100 * (busy + guest) / (busy + idle + guest) = 100 * busy / (busy + idle) ↔ guest = 0 ∨ idle = 0 := by
  have all : busy + idle + guest ≠ 0 := by linarith
  -- Multiplied out, the two sides differ by a hundred times guest times idle.
  rw [div_eq_div_iff all some.ne', ← mul_eq_zero]
  constructor
  · intro same
    linarith
  · intro none
    linarith

theorem cpuPercent_counters {a b : Counters} (later : a.Later b) (time : a.elapsed < b.elapsed) {p q : ProcStat}
    (before : p.total.toNat = a.elapsed + a.guests ∧ p.idle.toNat = a.idling)
    (after : q.total.toNat = b.elapsed + b.guests ∧ q.idle.toNat = b.idling) :
    cpuPercent p q = 100 * (((b.busy : Rat) - a.busy) + (b.guests - a.guests)) /
      (((b.busy : Rat) - a.busy) + (b.idling - a.idling) + (b.guests - a.guests)) := by
  obtain ⟨busy, idling, guests⟩ := later.sums
  obtain ⟨totalP, idleP⟩ := before
  obtain ⟨totalQ, idleQ⟩ := after
  -- Guest time is in the total twice and in the idle time not at all.
  have all : increase p.total q.total =
      ((b.busy : Rat) - a.busy) + (b.idling - a.idling) + (b.guests - a.guests) := by
    rw [← Counters.elapsed_increase, increase, totalP, totalQ]
    push_cast
    ring
  have idle : increase p.idle q.idle = (b.idling : Rat) - a.idling := by
    unfold increase
    rw [idleP, idleQ]
  have rest : increase p.total q.total - increase p.idle q.idle =
      ((b.busy : Rat) - a.busy) + (b.guests - a.guests) := by
    rw [all, idle]
    ring
  have nonneg : 0 ≤ increase p.total q.total - increase p.idle q.idle := by
    rw [rest]
    have busy' : (a.busy : Rat) ≤ b.busy := by exact_mod_cast busy
    have guests' : (a.guests : Rat) ≤ b.guests := by exact_mod_cast guests
    linarith
  have within (r : ProcStat) (c : Counters) (total : r.total.toNat = c.elapsed + c.guests)
      (idle : r.idle.toNat = c.idling) : r.idle ≤ r.total := by
    rw [UInt64.le_iff_toNat_le, total, idle, Counters.elapsed]
    omega
  have advanced : p.total < q.total := by
    rw [UInt64.lt_iff_toNat_lt, totalP, totalQ]
    omega
  have idles : p.idle ≤ q.idle := by
    rw [UInt64.le_iff_toNat_le, idleP, idleQ]
    exact idling
  rw [cpuPercent_share (within p a totalP idleP) (within q b totalQ idleQ) advanced idles, busyShare,
    max_eq_right nonneg, rest, all]

/-- Guest time is in the load once just if the counters are read at all, and
there was no guest time or nothing idle. -/
theorem guest_once {one two : Text} {a b : Counters} (readsOne : numbers one = some a.values)
    (readsTwo : numbers two = some b.values) (later : a.Later b) (time : a.elapsed < b.elapsed) :
    (∃ p q, parse one = some p ∧ parse two = some q ∧
        cpuPercent p q = 100 * ((b.busy : Rat) - a.busy) / ((b.elapsed : Rat) - a.elapsed)) ↔
      totalOf b.values < UInt64.size ∧ (a.guests = b.guests ∨ a.idling = b.idling) := by
  obtain ⟨busy, idling, guests⟩ := later.sums
  have guestTime : (0 : Rat) ≤ b.guests - a.guests := by
    rw [sub_nonneg]
    exact_mod_cast guests
  have more : (0 : Rat) < ((b.busy : Rat) - a.busy) + (b.idling - a.idling) := by
    rw [← Counters.elapsed_increase, sub_pos]
    exact_mod_cast time
  have once {p q : ProcStat} (parsedOne : parse one = some p) (parsedTwo : parse two = some q) :
      cpuPercent p q = 100 * ((b.busy : Rat) - a.busy) / ((b.elapsed : Rat) - a.elapsed) ↔
        a.guests = b.guests ∨ a.idling = b.idling := by
    rw [cpuPercent_counters later time ((Counters.parse_counters readsOne).mp parsedOne)
      ((Counters.parse_counters readsTwo).mp parsedTwo), Counters.elapsed_increase, share_guest guestTime more, sub_eq_zero,
      sub_eq_zero]
    refine or_congr ?_ ?_
    · exact ⟨fun same => (Nat.cast_injective same).symm, fun same => by rw [same]⟩
    · exact ⟨fun same => (Nat.cast_injective same).symm, fun same => by rw [same]⟩
  rw [Counters.totalOf_values]
  constructor
  · rintro ⟨p, q, parsedOne, parsedTwo, share⟩
    exact ⟨(Counters.parses_counters readsTwo).mp ⟨q, parsedTwo⟩, (once parsedOne parsedTwo).mp share⟩
  · rintro ⟨fits, fine⟩
    -- No counter ran backwards, so that the sum of the first line is no larger.
    have fitsOne : a.elapsed + a.guests < UInt64.size := by omega
    obtain ⟨p, parsedOne⟩ := (Counters.parses_counters readsOne).mpr fitsOne
    obtain ⟨q, parsedTwo⟩ := (Counters.parses_counters readsTwo).mpr fits
    exact ⟨p, q, parsedOne, parsedTwo, (once parsedOne parsedTwo).mpr fine⟩

theorem guest_once_half :
    ∃ p q, parse "cpu  0 0 0 0 0 0 0 0 0 0".toList = some p ∧ parse "cpu  100 0 0 100 0 0 0 0 0 0".toList = some q ∧
      cpuPercent p q = 100 * ((100 : Nat) - (0 : Nat) : Rat) / ((200 : Nat) - (0 : Nat)) :=
  (guest_once (a := ⟨0, 0, 0, 0, 0, 0, 0, 0, 0, 0⟩) (b := ⟨100, 0, 0, 100, 0, 0, 0, 0, 0, 0⟩) (by decide +kernel)
    (by decide +kernel) (by simp [Counters.Later, Counters.values]) (by decide)).mpr (by decide)

/-- All of the busy half was spent on guests, and counts as two thirds. -/
theorem guest_twice :
    parse "cpu  0 0 0 0 0 0 0 0 0 0".toList = some ⟨0, 0⟩ ∧
      parse "cpu  100 0 0 100 0 0 0 0 100 0".toList = some ⟨300, 100⟩ ∧
      cpuPercent ⟨0, 0⟩ ⟨300, 100⟩ = 200 / 3 ∧
      cpuPercent ⟨0, 0⟩ ⟨300, 100⟩ ≠ 100 * ((100 : Nat) - (0 : Nat) : Rat) / ((200 : Nat) - (0 : Nat)) := by
  decide +kernel

end MinimalVm.Liveness
