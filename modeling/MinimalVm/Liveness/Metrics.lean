import MinimalVm.Liveness.Guest
import MinimalVm.Text.Numerals
import Mathlib.Algebra.Order.Ring.Unbundled.Rat

/-! The collectors of CPU load, memory and swap.

Counters and byte counts are 64 bit wide and wrap where the source does not
check. The CPU load is the exact quotient that the source rounds.
-/

set_option autoImplicit false

namespace MinimalVm.Liveness

open MinimalVm.Semantics MinimalVm.Text

def parseU64 (text : Text) : Option UInt64 := (fromStrRadix 10 UInt64.size text).map .ofNat

/-- What is read fits, so that it is not wrapped. -/
theorem parseU64_eq_some {text : Text} {value : UInt64} :
    parseU64 text = some value ↔ fromStrRadix 10 UInt64.size text = some value.toNat := by
  unfold parseU64
  constructor
  · intro parses
    obtain ⟨n, reads, rfl⟩ := Option.map_eq_some_iff.mp parses
    have below : n < UInt64.size := fromStrRadix_below (by decide) reads
    rw [reads, UInt64.toNat_ofNat_of_lt' below]
  · intro reads
    rw [reads, Option.map_some, UInt64.ofNat_toNat]

def saturatingSub (a b : UInt64) : UInt64 := if b ≤ a then a - b else 0

theorem saturatingSub_toNat (a b : UInt64) : (saturatingSub a b).toNat = a.toNat - b.toNat := by
  unfold saturatingSub
  split
  · exact UInt64.toNat_sub_of_le _ _ ‹_›
  · have more : a.toNat < b.toNat := UInt64.not_le.mp ‹_›
    rw [Nat.sub_eq_zero_of_le (Nat.le_of_lt more)]
    rfl

def checkedAdd (a b : UInt64) : Option UInt64 :=
  if a.toNat + b.toNat < UInt64.size then some (a + b) else none

/-! ## CPU load -/

structure ProcStat where
  total : UInt64
  idle : UInt64
  deriving DecidableEq, Repr

namespace ProcStat

/-- Read on at the field with an index, after the fields before it. -/
def parseFields : (index : Nat) → (sum idle : UInt64) → List Text → Option ProcStat
  | _, sum, idle, [] => some ⟨sum, idle⟩
  | index, sum, idle, field :: rest =>
    match parseU64 field with
    -- A truncated line still yields a total of the fields read.
    | none => some ⟨sum, idle⟩
    | some value =>
      -- The fields 3 and 4 are idle and iowait.
      let idle := if index = 3 ∨ index = 4 then idle + value else idle
      match checkedAdd sum value with
      | none => none
      | some sum => parseFields (index + 1) sum idle rest

/-- The aggregate line has a space where the lines of the cores have a number. -/
def parse (line : Text) : Option ProcStat :=
  match "cpu ".toList.isPrefixOf? line with
  | none => none
  | some rest => parseFields 0 0 0 (splitWhitespace rest)

end ProcStat

def readProcStat (guest : Guest) : Except MetricsError ProcStat :=
  match guest.read "/proc/stat" with
  | .error error => .error error
  | .ok stat =>
    match (lines stat).findSome? ProcStat.parse with
    | none => .error .noCpuLine
    | some parsed => .ok parsed

structure CpuSample where
  first : ProcStat
  deriving DecidableEq, Repr

def cpuSample (guest : Guest) : Except MetricsError CpuSample :=
  match readProcStat guest with
  | .error error => .error error
  | .ok first => .ok ⟨first⟩

def cpuPercent (first second : ProcStat) : Rat :=
  let totalDelta := saturatingSub second.total first.total
  if totalDelta = 0 then 0
  else
    let busyDelta := saturatingSub (second.total - second.idle) (first.total - first.idle)
    max 0 (min ((busyDelta.toNat : Rat) / totalDelta.toNat * 100) 100)

/-- The load since the previous sample, which the new one replaces. -/
def sample (guest : Guest) (cpu : CpuSample) : Except MetricsError (Rat × CpuSample) :=
  match readProcStat guest with
  | .error error => .error error
  | .ok second => .ok (cpuPercent cpu.first second, ⟨second⟩)

/-! ## Memory and swap -/

/-- Strip a suffix as often as it is there. -/
def trimEndMatches (suffix text : Text) : Text :=
  match suffix.isSuffixOf? text with
  | none => text
  | some rest => if rest.length < text.length then trimEndMatches suffix rest else text
termination_by text.length

def meminfoField (meminfo : Text) (field : String) : Except MetricsError UInt64 :=
  let found := (lines meminfo).findSome? fun line =>
    (field.toList.isPrefixOf? line).bind fun rest => parseU64 (trim (trimEndMatches " kB".toList rest))
  match found with
  | none => .error (.noField field)
  | some value => .ok value

/-- Of two fields of `/proc/meminfo`, in kilobytes, the first is the total and
the second what is still to be had. -/
def meminfoUsage (guest : Guest) (total available : String) : Except MetricsError Usage :=
  match guest.read "/proc/meminfo" with
  | .error error => .error error
  | .ok meminfo =>
    match meminfoField meminfo total with
    | .error error => .error error
    | .ok totalKb =>
      match meminfoField meminfo available with
      | .error error => .error error
      | .ok availableKb => .ok { used := saturatingSub totalKb availableKb * 1024, total := totalKb * 1024 }

def memory (guest : Guest) : Except MetricsError Usage := meminfoUsage guest "MemTotal:" "MemAvailable:"

def swap (guest : Guest) : Except MetricsError Usage := meminfoUsage guest "SwapTotal:" "SwapFree:"

end MinimalVm.Liveness
