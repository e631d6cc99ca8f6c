import MinimalVm.Liveness.Metrics
import MinimalVm.Semantics.Overflow

/-! The counters of the aggregate line.

The total is added up with a check and the idle time without one, and before
it. What is idle is never more than the total, so that the check of the total
covers both, but a debug build panics before it gets there.
-/

set_option autoImplicit false

namespace MinimalVm.Liveness

open MinimalVm.Semantics MinimalVm.Text

theorem checkedAdd_eq (a b : UInt64) : checkedAdd a b = add? a b := rfl

namespace ProcStat

/-! ## The debug build -/

def parseFieldsDebug : (index : Nat) → (sum idle : UInt64) → List Text → Option (Option ProcStat)
  | _, sum, idle, [] => some (some ⟨sum, idle⟩)
  | index, sum, idle, field :: rest =>
    match parseU64 field with
    | none => some (some ⟨sum, idle⟩)
    | some value =>
      match if index = 3 ∨ index = 4 then add? idle value else some idle with
      | none => none
      | some idle =>
        match checkedAdd sum value with
        | none => some none
        | some sum => parseFieldsDebug (index + 1) sum idle rest

def parseDebug (line : Text) : Option (Option ProcStat) :=
  match "cpu ".toList.isPrefixOf? line with
  | none => some none
  | some rest => parseFieldsDebug 0 0 0 (splitWhitespace rest)

/-! ## What is added up -/

/-- The numbers that a line begins with. -/
def leading : List Text → List UInt64
  | [] => []
  | field :: rest =>
    match parseU64 field with
    | none => []
    | some value => value :: leading rest

def totalOf : List UInt64 → Nat
  | [] => 0
  | value :: rest => value.toNat + totalOf rest

/-- The part of the total that is idle time, from the field with an index. -/
def idleOf : (index : Nat) → List UInt64 → Nat
  | _, [] => 0
  | index, value :: rest => (if index = 3 ∨ index = 4 then value.toNat else 0) + idleOf (index + 1) rest

theorem idleOf_le (index : Nat) (values : List UInt64) : idleOf index values ≤ totalOf values := by
  induction values generalizing index with
  | nil => exact Nat.le_refl 0
  | cons value rest ih =>
    have later := ih (index + 1)
    rw [idleOf, totalOf]
    split
    · omega
    · omega

/-- One field adds to the total, and to the idle time if it is one of its fields. -/
theorem idle_next (index : Nat) {sum idle value : UInt64} (below : idle.toNat ≤ sum.toNat)
    (fits : sum.toNat + value.toNat < UInt64.size) :
    (if index = 3 ∨ index = 4 then idle + value else idle).toNat =
      idle.toNat + if index = 3 ∨ index = 4 then value.toNat else 0 := by
  split
  · exact toNat_add_of_fits (by omega)
  · rfl

theorem below_next (index : Nat) {sum idle value : UInt64} (below : idle.toNat ≤ sum.toNat)
    (fits : sum.toNat + value.toNat < UInt64.size) :
    (if index = 3 ∨ index = 4 then idle + value else idle).toNat ≤ (sum + value).toNat := by
  rw [toNat_add_of_fits fits, idle_next index below fits]
  split
  · omega
  · omega

theorem parseFields_some {index : Nat} {sum idle : UInt64} {fields : List Text} {p : ProcStat}
    (below : idle.toNat ≤ sum.toNat) :
    parseFields index sum idle fields = some p ↔
      p.total.toNat = sum.toNat + totalOf (leading fields) ∧ p.idle.toNat = idle.toNat + idleOf index (leading fields) := by
  have done (sum idle : UInt64) : some (⟨sum, idle⟩ : ProcStat) = some p ↔
      p.total.toNat = sum.toNat + 0 ∧ p.idle.toNat = idle.toNat + 0 := by
    obtain ⟨total, idles⟩ := p
    rw [Option.some.injEq, ProcStat.mk.injEq, Nat.add_zero, Nat.add_zero, UInt64.toNat_inj, UInt64.toNat_inj]
    exact and_congr eq_comm eq_comm
  induction fields generalizing index sum idle with
  | nil => exact done sum idle
  | cons field rest ih =>
    rw [parseFields, leading]
    cases number : parseU64 field with
    | none => exact done sum idle
    | some value =>
      dsimp only
      rw [checkedAdd_eq, totalOf, idleOf]
      by_cases fits : sum.toNat + value.toNat < UInt64.size
      · rw [add?_of_fits fits]
        dsimp only
        refine (ih (below_next index below fits)).trans ?_
        rw [toNat_add_of_fits fits, idle_next index below fits, Nat.add_assoc, Nat.add_assoc]
      · rw [add?_eq_none.mpr (Nat.le_of_not_lt fits)]
        refine iff_of_false nofun ?_
        -- The check gives up here, and no total is as large as this sum.
        rintro ⟨large, -⟩
        have bound := p.total.toNat_lt_size
        omega

theorem parseFields_none {index : Nat} {sum idle : UInt64} {fields : List Text} (below : idle.toNat ≤ sum.toNat) :
    parseFields index sum idle fields = none ↔ UInt64.size ≤ sum.toNat + totalOf (leading fields) := by
  have le := idleOf_le index (leading fields)
  constructor
  · intro none
    apply Nat.le_of_not_lt
    intro fits
    have idles : idle.toNat + idleOf index (leading fields) < UInt64.size := by omega
    have some : parseFields index sum idle fields =
        some ⟨.ofNat (sum.toNat + totalOf (leading fields)), .ofNat (idle.toNat + idleOf index (leading fields))⟩ :=
      (parseFields_some below).mpr ⟨UInt64.toNat_ofNat_of_lt' fits, UInt64.toNat_ofNat_of_lt' idles⟩
    cases none.symm.trans some
  · intro large
    cases read : parseFields index sum idle fields with
    | none => rfl
    | some p =>
      obtain ⟨total, -⟩ := (parseFields_some below).mp read
      have bound := p.total.toNat_lt_size
      omega

/-! ## Where a debug build panics -/

/-- No idle time is too much, as long as the total before it is not. -/
def Fits (index sum idle : Nat) (values : List UInt64) : Prop :=
  ∀ first value rest, values = first ++ value :: rest → index + first.length = 3 ∨ index + first.length = 4 →
    sum + totalOf first < UInt64.size → idle + idleOf index (first ++ [value]) < UInt64.size

theorem fits_nil (index sum idle : Nat) : Fits index sum idle [] := by
  intro first value rest split
  cases first with
  | nil => cases split
  | cons v first => cases split

theorem fits_cons {index sum idle : Nat} {value : UInt64} {rest : List UInt64} (small : sum < UInt64.size) :
    Fits index sum idle (value :: rest) ↔
      (index = 3 ∨ index = 4 → idle + value.toNat < UInt64.size) ∧
        Fits (index + 1) (sum + value.toNat) (idle + if index = 3 ∨ index = 4 then value.toNat else 0) rest := by
  constructor
  · intro fits
    -- A beginning of the list is empty, which is about `value`, or goes on in `rest`.
    constructor
    · intro counted
      have here := fits [] value rest rfl counted small
      rw [List.nil_append, idleOf, if_pos counted] at here
      exact here
    · intro first other more split counted below
      have later := fits (value :: first) other more (congrArg (value :: ·) split)
      rw [List.length_cons, List.cons_append, totalOf, idleOf] at later
      have within := later (by omega) (by omega)
      omega
  · rintro ⟨here, later⟩ first other more split counted below
    cases first with
    | nil =>
      obtain ⟨rfl, -⟩ := List.cons.inj split
      have now : index = 3 ∨ index = 4 := counted
      rw [List.nil_append, idleOf, if_pos now]
      exact here now
    | cons v first =>
      obtain ⟨rfl, same⟩ := List.cons.inj split
      rw [List.length_cons] at counted
      rw [totalOf] at below
      have within := later first other more same (by omega) (by omega)
      rw [List.cons_append, idleOf]
      omega

theorem parseFieldsDebug_alike (index : Nat) (sum idle : UInt64) (fields : List Text) :
    parseFieldsDebug index sum idle fields = some (parseFields index sum idle fields) ∨
      parseFieldsDebug index sum idle fields = none := by
  induction fields generalizing index sum idle with
  | nil => exact .inl rfl
  | cons field rest ih =>
    rw [parseFields, parseFieldsDebug]
    cases parseU64 field with
    | none => exact .inl rfl
    | some value =>
      have added : (if index = 3 ∨ index = 4 then add? idle value else some idle) =
          some (if index = 3 ∨ index = 4 then idle + value else idle) ∨
          (if index = 3 ∨ index = 4 then add? idle value else some idle) = none := by
        split
        · unfold add?
          split
          · exact .inl rfl
          · exact .inr rfl
        · exact .inl rfl
      dsimp only
      rcases added with same | panics
      · rw [same]
        cases checkedAdd sum value with
        | none => exact .inl rfl
        | some sum => exact ih (index + 1) sum _
      · rw [panics]
        exact .inr rfl

theorem parseFieldsDebug_eq {index : Nat} {sum idle : UInt64} {fields : List Text} (below : idle.toNat ≤ sum.toNat) :
    parseFieldsDebug index sum idle fields = some (parseFields index sum idle fields) ↔
      Fits index sum.toNat idle.toNat (leading fields) := by
  induction fields generalizing index sum idle with
  | nil => exact iff_of_true rfl (fits_nil index _ _)
  | cons field rest ih =>
    rw [parseFields, parseFieldsDebug, leading]
    cases number : parseU64 field with
    | none => exact iff_of_true rfl (fits_nil index _ _)
    | some value =>
      dsimp only
      rw [fits_cons sum.toNat_lt_size]
      -- The addition without a check comes first in the source.
      by_cases panics : (index = 3 ∨ index = 4) ∧ UInt64.size ≤ idle.toNat + value.toNat
      · rw [if_pos panics.1, add?_eq_none.mpr panics.2]
        refine iff_of_false nofun ?_
        rintro ⟨here, -⟩
        exact Nat.not_le_of_lt (here panics.1) panics.2
      · have here : index = 3 ∨ index = 4 → idle.toNat + value.toNat < UInt64.size := by omega
        have added : (if index = 3 ∨ index = 4 then add? idle value else some idle) =
            some (if index = 3 ∨ index = 4 then idle + value else idle) := by
          split
          · exact add?_of_fits (here ‹_›)
          · rfl
        rw [added, and_iff_right here, checkedAdd_eq]
        dsimp only
        by_cases fits : sum.toNat + value.toNat < UInt64.size
        · have same := toNat_add_of_fits fits
          have next := idle_next index below fits
          rw [add?_of_fits fits, ← same, ← next]
          exact ih (below_next index below fits)
        · rw [add?_eq_none.mpr (Nat.le_of_not_lt fits)]
          refine iff_of_true rfl ?_
          -- The check ends the reading, and so nothing is asked of a later field.
          intro first other more split counted small
          omega

def Overloaded (values : List UInt64) : Prop :=
  ∃ user nice system idle iowait rest, values = user :: nice :: system :: idle :: iowait :: rest ∧
    user.toNat + nice.toNat + system.toNat + idle.toNat < UInt64.size ∧ UInt64.size ≤ idle.toNat + iowait.toNat

theorem fits_iff (values : List UInt64) : Fits 0 0 0 values ↔ ¬ Overloaded values := by
  constructor
  · rintro fits ⟨user, nice, system, idle, iowait, rest, rfl, small, large⟩
    have within := fits [user, nice, system, idle] iowait rest rfl (.inr rfl)
    simp only [totalOf, idleOf, List.cons_append, List.nil_append] at within
    simp at within
    omega
  · intro fine first value rest split counted small
    rcases counted with three | four
    -- The fourth field is the first of the idle time, which fits by itself.
    · rw [Nat.zero_add] at three
      obtain ⟨user, nice, system, rfl⟩ := List.length_eq_three.mp three
      have bound := value.toNat_lt_size
      simp [idleOf]
      omega
    · rw [Nat.zero_add] at four
      match first, four with
      | [user, nice, system, idle], _ =>
        apply Nat.lt_of_not_le
        intro large
        apply fine
        refine ⟨user, nice, system, idle, value, rest, split, ?_, ?_⟩
        · simp [totalOf] at small
          omega
        · simp [idleOf] at large
          omega

/-! ## Lines -/

theorem nothing_idle : (0 : UInt64).toNat ≤ (0 : UInt64).toNat := Nat.le_refl _

def numbers (line : Text) : Option (List UInt64) :=
  ("cpu ".toList.isPrefixOf? line).map fun rest => leading (splitWhitespace rest)

theorem parse_some {line : Text} {p : ProcStat} :
    parse line = some p ↔ ∃ values, numbers line = some values ∧ p.total.toNat = totalOf values ∧
      p.idle.toNat = idleOf 0 values := by
  unfold parse numbers
  cases "cpu ".toList.isPrefixOf? line with
  | none =>
    refine iff_of_false nofun ?_
    rintro ⟨values, impossible, -⟩
    cases impossible
  | some rest =>
    dsimp only [Option.map_some]
    refine (parseFields_some nothing_idle).trans ?_
    rw [UInt64.toNat_zero, Nat.zero_add, Nat.zero_add]
    constructor
    · exact fun sums => ⟨_, rfl, sums⟩
    · rintro ⟨values, same, sums⟩
      cases same
      exact sums

theorem parse_none {line : Text} :
    parse line = none ↔ ∀ values, numbers line = some values → UInt64.size ≤ totalOf values := by
  unfold parse numbers
  cases "cpu ".toList.isPrefixOf? line with
  | none => exact iff_of_true rfl nofun
  | some rest =>
    dsimp only [Option.map_some]
    refine (parseFields_none nothing_idle).trans ?_
    rw [UInt64.toNat_zero, Nat.zero_add]
    constructor
    · rintro large values same
      cases same
      exact large
    · exact fun large => large _ rfl

theorem parse_idle {line : Text} {p : ProcStat} (parsed : parse line = some p) : p.idle ≤ p.total := by
  obtain ⟨values, -, total, idle⟩ := parse_some.mp parsed
  rw [UInt64.le_iff_toNat_le, total, idle]
  exact idleOf_le 0 values

theorem parseDebug_alike (line : Text) : parseDebug line = some (parse line) ∨ parseDebug line = none := by
  unfold parse parseDebug
  cases "cpu ".toList.isPrefixOf? line with
  | none => exact .inl rfl
  | some rest => exact parseFieldsDebug_alike 0 0 0 (splitWhitespace rest)

theorem parseDebug_eq {line : Text} :
    parseDebug line = some (parse line) ↔ ∀ values, numbers line = some values → ¬ Overloaded values := by
  unfold parse parseDebug numbers
  cases "cpu ".toList.isPrefixOf? line with
  | none => exact iff_of_true rfl nofun
  | some rest =>
    dsimp only [Option.map_some]
    refine (parseFieldsDebug_eq nothing_idle).trans ?_
    rw [UInt64.toNat_zero, fits_iff]
    constructor
    · rintro fine values same
      cases same
      exact fine
    · exact fun fine => fine _ rfl

end ProcStat

/-! ## The load -/

def cpuPercentDebug (first second : ProcStat) : Option Rat :=
  let totalDelta := saturatingSub second.total first.total
  if totalDelta = 0 then some 0
  else
    match sub? second.total second.idle with
    | none => none
    | some secondBusy =>
      match sub? first.total first.idle with
      | none => none
      | some firstBusy =>
        let busyDelta := saturatingSub secondBusy firstBusy
        some (max 0 (min ((busyDelta.toNat : Rat) / totalDelta.toNat * 100) 100))

theorem cpuPercentDebug_eq {first second : ProcStat} (before : first.idle ≤ first.total)
    (after : second.idle ≤ second.total) : cpuPercentDebug first second = some (cpuPercent first second) := by
  unfold cpuPercentDebug cpuPercent
  rw [sub?_of_le before, sub?_of_le after]
  dsimp only
  split
  · rfl
  · rfl

open ProcStat

/-- No line that is read before the counters are found overloads its idle time. -/
def Countable (stat : Text) : Prop :=
  ∀ first line rest, lines stat = first ++ line :: rest →
    (∀ earlier ∈ first, ∀ values, numbers earlier = some values → UInt64.size ≤ totalOf values) →
    ∀ values, numbers line = some values → ¬ Overloaded values

theorem find_alike (stat : Text) :
    (lines stat).findSomeM? parseDebug = some ((lines stat).findSome? parse) ↔ Countable stat := by
  rw [findSomeM?_eq_some parseDebug_alike]
  simp only [parse_none, parseDebug_eq]
  rfl

/-- Nothing overflows in the counters of two texts, whichever the build, just if
neither overloads its idle time. Whatever is parsed has no more idle time than
time, and an aggregate line is refused for its total alone. -/
theorem counters_fit (first second : Text) :
    ((lines first).findSomeM? parseDebug = some ((lines first).findSome? parse) ∧
      (lines second).findSomeM? parseDebug = some ((lines second).findSome? parse) ∧
      (∀ p q, (lines first).findSome? parse = some p → (lines second).findSome? parse = some q →
        cpuPercentDebug p q = some (cpuPercent p q)) ∧
      (∀ line p, parse line = some p → p.idle ≤ p.total) ∧
      ∀ line values, numbers line = some values → (parse line = none ↔ UInt64.size ≤ totalOf values)) ↔
      Countable first ∧ Countable second := by
  have idles {stat : Text} {p : ProcStat} (found : (lines stat).findSome? parse = some p) : p.idle ≤ p.total := by
    obtain ⟨line, -, parsed⟩ := List.exists_of_findSome?_eq_some found
    exact parse_idle parsed
  rw [find_alike, find_alike]
  constructor
  · rintro ⟨countsFirst, countsSecond, -⟩
    exact ⟨countsFirst, countsSecond⟩
  · rintro ⟨countsFirst, countsSecond⟩
    refine ⟨countsFirst, countsSecond, fun p q before after => ?_, fun line p => parse_idle, fun line values read => ?_⟩
    · exact cpuPercentDebug_eq (idles before) (idles after)
    · rw [parse_none]
      constructor
      · exact fun large => large values read
      · intro large others same
        cases read.symm.trans same
        exact large

/-- The text of a machine that has done nothing for as long as it can count. -/
def idleForEver : Text := "cpu  0 0 0 18446744073709551615 1 0 0 0 0 0\n".toList

/-- A debug build panics where a release build finds no counters. -/
theorem counters_overflow :
    (lines idleForEver).findSomeM? parseDebug = none ∧ (lines idleForEver).findSome? parse = none := by
  decide +kernel

end MinimalVm.Liveness
