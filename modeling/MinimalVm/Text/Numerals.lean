/-! Reading an unsigned number in some radix, as the parsers of the source do.

A sign may stand in front of the digits, a minus is no digit, and a number that
does not fit is refused.
-/

set_option autoImplicit false

namespace MinimalVm.Text

def toDigit (radix : Nat) (c : Char) : Option Nat :=
  let digit :=
    if '0' ≤ c ∧ c ≤ '9' then c.toNat - '0'.toNat
    else if 'a' ≤ c ∧ c ≤ 'z' then c.toNat - 'a'.toNat + 10
    else if 'A' ≤ c ∧ c ≤ 'Z' then c.toNat - 'A'.toNat + 10
    else radix
  if digit < radix then some digit else none

/-- Read on with what has been read, as long as it stays below the size. -/
def readDigits (radix size : Nat) : (read : Nat) → List Char → Option Nat
  | read, [] => some read
  | read, c :: rest =>
    match toDigit radix c with
    | none => none
    | some digit =>
      let read := read * radix + digit
      if read < size then readDigits radix size read rest else none

def fromStrRadix (radix size : Nat) : List Char → Option Nat
  | [] | ['+'] | ['-'] => none
  | '+' :: digits => readDigits radix size 0 digits
  | digits => readDigits radix size 0 digits

theorem readDigits_below {radix size read value : Nat} {text : List Char} (below : read < size)
    (reads : readDigits radix size read text = some value) : value < size := by
  induction text generalizing read with
  | nil => exact Option.some.inj reads ▸ below
  | cons c rest ih =>
    rw [readDigits] at reads
    split at reads
    · cases reads
    · dsimp only at reads
      split at reads
      · exact ih ‹_› reads
      · cases reads

theorem readDigits_digits {radix size read value : Nat} {text : List Char}
    (reads : readDigits radix size read text = some value) : ∀ c ∈ text, (toDigit radix c).isSome = true := by
  induction text generalizing read with
  | nil => nofun
  | cons c rest ih =>
    rw [readDigits] at reads
    split at reads
    · cases reads
    · rename_i digit isDigit
      dsimp only at reads
      split at reads
      · exact List.forall_mem_cons.mpr ⟨isDigit ▸ rfl, ih reads⟩
      · cases reads

theorem fromStrRadix_below {radix size value : Nat} {text : List Char} (positive : 0 < size)
    (reads : fromStrRadix radix size text = some value) : value < size := by
  unfold fromStrRadix at reads
  split at reads
  · cases reads
  · cases reads
  · cases reads
  · exact readDigits_below positive reads
  · exact readDigits_below positive reads

end MinimalVm.Text
