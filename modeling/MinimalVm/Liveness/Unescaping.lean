import MinimalVm.Liveness.Mounts

/-! The decoder of mount points against the grammar of octal escapes.

The grammar goes on with the very next character after a backslash that starts
no escape. The decoder has then taken three characters already, so it can read
over an escape among them, and it takes a plus sign for part of a number. Where
one of the two happens, the texts never agree again.
-/

set_option autoImplicit false

namespace MinimalVm.Liveness

open MinimalVm.Text

def isOctal (c : Char) : Bool := '0' ≤ c && c ≤ '7'

def octalChar (a b c : Char) : Char :=
  Char.ofNat (((a.toNat - '0'.toNat) * 8 + (b.toNat - '0'.toNat)) * 8 + (c.toNat - '0'.toNat))

/-- A text that starts with an escape: what it stands for, and the rest. -/
def startsEscape : Text → Option (Char × Text)
  | backslash :: a :: b :: c :: rest =>
    if backslash = '\\' ∧ isOctal a ∧ isOctal b ∧ isOctal c then some (octalChar a b c, rest) else none
  | _ => none

theorem startsEscape_some {text rest : Text} {decoded : Char} (starts : startsEscape text = some (decoded, rest)) :
    ∃ a b c, text = '\\' :: a :: b :: c :: rest ∧ isOctal a = true ∧ isOctal b = true ∧ isOctal c = true ∧
      decoded = octalChar a b c := by
  unfold startsEscape at starts
  split at starts
  · split at starts
    · rename_i _ backslash a b c more digits
      obtain ⟨rfl, isA, isB, isC⟩ := digits
      cases starts
      exact ⟨a, b, c, rfl, isA, isB, isC, rfl⟩
    · cases starts
  · cases starts

theorem startsEscape_shorter {text rest : Text} {decoded : Char} (starts : startsEscape text = some (decoded, rest)) :
    rest.length < text.length := by
  obtain ⟨a, b, c, rfl, -⟩ := startsEscape_some starts
  simp only [List.length_cons]
  omega

/-- The text that the grammar of octal escapes gives a field. -/
def decodeOctal (field : Text) : Text :=
  match _starts : startsEscape field with
  | some (decoded, rest) => decoded :: decodeOctal rest
  | none =>
    match field with
    | [] => []
    | c :: rest => c :: decodeOctal rest
termination_by field.length
decreasing_by
  · exact startsEscape_shorter _starts
  · exact Nat.lt_succ_self _

/-! ## One escape -/

section
variable {a b c : Char} {rest : Text}

theorem isOctal_bounds (digit : isOctal c = true) : 48 ≤ c.toNat ∧ c.toNat ≤ 55 := by
  unfold isOctal at digit
  rw [Bool.and_eq_true, decide_eq_true_iff, decide_eq_true_iff] at digit
  exact ⟨Char.le_def.mp digit.1, Char.le_def.mp digit.2⟩

theorem isOctal_ne (digit : isOctal c = true) {other : Char} (apart : isOctal other = false) : c ≠ other := by
  rintro rfl
  rw [digit] at apart
  cases apart

theorem toDigit_octal (digit : isOctal c = true) : toDigit 8 c = some (c.toNat - '0'.toNat) := by
  have bounds := isOctal_bounds digit
  have decimal : '0' ≤ c ∧ c ≤ '9' := by
    constructor
    · exact Char.le_def.mpr bounds.1
    · exact Char.le_def.mpr (Nat.le_trans bounds.2 (by decide))
  have small : c.toNat - '0'.toNat < 8 := by
    have zero : '0'.toNat = 48 := rfl
    omega
  simp only [toDigit, decimal, and_self, if_true, small]

theorem isOctal_of_toDigit (digit : (toDigit 8 c).isSome = true) : isOctal c = true := by
  unfold toDigit at digit
  by_cases decimal : '0' ≤ c ∧ c ≤ '9'
  · by_cases small : c.toNat - '0'.toNat < 8
    · have zero : '0'.toNat = 48 := rfl
      have low : 48 ≤ c.toNat := Char.le_def.mp decimal.1
      have high : c.toNat ≤ 55 := by omega
      unfold isOctal
      rw [Bool.and_eq_true, decide_eq_true_iff, decide_eq_true_iff]
      exact ⟨decimal.1, Char.le_def.mpr high⟩
    · simp only [decimal, and_self, if_true, small, if_false] at digit
      cases digit
  · -- Letters stand for ten and more, and nothing else is a digit.
    have large : ¬ (if 'a' ≤ c ∧ c ≤ 'z' then c.toNat - 'a'.toNat + 10
        else if 'A' ≤ c ∧ c ≤ 'Z' then c.toNat - 'A'.toNat + 10 else 8) < 8 := by
      split
      · omega
      · split <;> omega
    simp only [decimal, if_false, large] at digit
    cases digit

theorem utf8Size_octal (digit : isOctal c = true) : c.utf8Size = 1 := by
  have bounds := isOctal_bounds digit
  refine Char.utf8Size_eq_one_iff.mpr ?_
  exact Nat.le_trans bounds.2 (by decide)

theorem octalChar_charFromU32 (isA : isOctal a = true) (isB : isOctal b = true) (isC : isOctal c = true) :
    charFromU32 (((a.toNat - '0'.toNat) * 8 + (b.toNat - '0'.toNat)) * 8 + (c.toNat - '0'.toNat)) =
      octalChar a b c := by
  have boundA := isOctal_bounds isA
  have boundB := isOctal_bounds isB
  have boundC := isOctal_bounds isC
  have zero : '0'.toNat = 48 := rfl
  have valid : (((a.toNat - '0'.toNat) * 8 + (b.toNat - '0'.toNat)) * 8 + (c.toNat - '0'.toNat)).isValidChar := by
    left
    omega
  rw [charFromU32, if_pos valid, octalChar]

theorem readDigits_octal {size read : Nat} (digit : isOctal c = true) (fits : read * 8 + 7 < size) :
    readDigits 8 size read (c :: rest) = readDigits 8 size (read * 8 + (c.toNat - '0'.toNat)) rest := by
  have bounds := isOctal_bounds digit
  have zero : '0'.toNat = 48 := rfl
  have below : read * 8 + (c.toNat - '0'.toNat) < size := by omega
  rw [readDigits, toDigit_octal digit]
  dsimp only
  rw [if_pos below]

theorem decodeEscape_octal (isA : isOctal a = true) (isB : isOctal b = true) (isC : isOctal c = true) :
    decodeEscape [a, b, c] = some (octalChar a b c) := by
  have boundA := isOctal_bounds isA
  have boundB := isOctal_bounds isB
  have zero : '0'.toNat = 48 := rfl
  have plus : a ≠ '+' := isOctal_ne isA rfl
  have size : UInt32.size = 4294967296 := rfl
  have number : fromStrRadix 8 UInt32.size [a, b, c] =
      some (((a.toNat - '0'.toNat) * 8 + (b.toNat - '0'.toNat)) * 8 + (c.toNat - '0'.toNat)) := by
    have reads : fromStrRadix 8 UInt32.size [a, b, c] = readDigits 8 UInt32.size 0 [a, b, c] := by
      simp [fromStrRadix, plus]
    rw [reads, readDigits_octal isA (by omega), readDigits_octal isB (by omega), readDigits_octal isC (by omega),
      readDigits, Nat.zero_mul, Nat.zero_add]
  have length : byteLength [a, b, c] = 3 := by
    simp [byteLength, utf8Size_octal isA, utf8Size_octal isB, utf8Size_octal isC]
  rw [decodeEscape, number]
  dsimp only
  rw [if_pos length, octalChar_charFromU32 isA isB isC]

/-- The decoder takes a plus sign for the first of three octal digits. -/
theorem decodeEscape_signed (isB : isOctal b = true) (isC : isOctal c = true) :
    decodeEscape ['+', b, c] = some (octalChar '0' b c) := by
  have boundB := isOctal_bounds isB
  have zero : '0'.toNat = 48 := rfl
  have size : UInt32.size = 4294967296 := rfl
  have number : fromStrRadix 8 UInt32.size ['+', b, c] =
      some ((('0'.toNat - '0'.toNat) * 8 + (b.toNat - '0'.toNat)) * 8 + (c.toNat - '0'.toNat)) := by
    have reads : fromStrRadix 8 UInt32.size ['+', b, c] = readDigits 8 UInt32.size 0 [b, c] := rfl
    rw [reads, readDigits_octal isB (by omega), readDigits_octal isC (by omega), readDigits, Nat.sub_self]
  have length : byteLength ['+', b, c] = 3 := by
    simp [byteLength, utf8Size_octal isB, utf8Size_octal isC, Char.utf8Size_eq_one_iff.mpr (by decide : '+' ≤ '\x7f')]
  rw [decodeEscape, number]
  dsimp only
  rw [if_pos length, octalChar_charFromU32 rfl isB isC]

theorem byteLength_octal {digits : Text} (octal : ∀ c ∈ digits, isOctal c = true) :
    byteLength digits = digits.length := by
  induction digits with
  | nil => rfl
  | cons c rest ih =>
    have later := ih fun d member => octal d (List.mem_cons_of_mem c member)
    unfold byteLength at later ⊢
    rw [List.map_cons, List.sum_cons, later, utf8Size_octal (octal c List.mem_cons_self), List.length_cons, Nat.add_comm]

theorem decodeEscape_some {taken : Text} {decoded : Char} (decodes : decodeEscape taken = some decoded) :
    (∃ a b c, taken = [a, b, c] ∧ isOctal a = true ∧ isOctal b = true ∧ isOctal c = true) ∨
      ∃ b c, taken = ['+', b, c] ∧ isOctal b = true ∧ isOctal c = true := by
  have octal {digits : Text} {value : Nat} (reads : readDigits 8 UInt32.size 0 digits = some value) :
      ∀ c ∈ digits, isOctal c = true := fun c member => isOctal_of_toDigit (readDigits_digits reads c member)
  unfold decodeEscape at decodes
  split at decodes
  · rename_i byte reads
    split at decodes
    · rename_i length
      unfold fromStrRadix at reads
      split at reads
      · cases reads
      · cases reads
      · cases reads
      · rename_i digits _
        right
        have digit := octal reads
        have two : digits.length = 2 := by
          have whole : byteLength ('+' :: digits) = '+'.utf8Size + byteLength digits := rfl
          have plus : '+'.utf8Size = 1 := Char.utf8Size_eq_one_iff.mpr (by decide)
          rw [whole, plus, byteLength_octal digit] at length
          omega
        obtain ⟨b, c, rfl⟩ := List.length_eq_two.mp two
        exact ⟨b, c, rfl, digit b (by simp), digit c (by simp)⟩
      · left
        have digit := octal reads
        rw [byteLength_octal digit] at length
        obtain ⟨a, b, c, rfl⟩ := List.length_eq_three.mp length
        exact ⟨a, b, c, rfl, digit a (by simp), digit b (by simp), digit c (by simp)⟩
    · cases decodes
  · cases decodes

end

/-! ## The two decoders, character by character -/

/-- The decoder goes on after copying some characters as they are. -/
def copying (n : Nat) (rest : Text) : Text := rest.take n ++ unescapeMountPoint (rest.drop n)

@[simp] theorem copying_zero (rest : Text) : copying 0 rest = unescapeMountPoint rest := rfl

@[simp] theorem copying_nil (n : Nat) : copying n [] = [] := by
  rw [copying, List.take_nil, List.drop_nil, List.nil_append, unescapeMountPoint]

@[simp] theorem copying_succ (n : Nat) (c : Char) (rest : Text) : copying (n + 1) (c :: rest) = c :: copying n rest :=
  rfl

def isSigned : Text → Bool
  | plus :: b :: c :: _ => plus = '+' && isOctal b && isOctal c
  | _ => false

section
variable {a b c : Char} {rest : Text}

theorem isSigned_some {text : Text} (signed : isSigned text = true) :
    ∃ b c rest, text = '+' :: b :: c :: rest ∧ isOctal b = true ∧ isOctal c = true := by
  unfold isSigned at signed
  split at signed
  · rename_i plus b c rest
    rw [Bool.and_eq_true, Bool.and_eq_true, decide_eq_true_iff] at signed
    obtain ⟨⟨rfl, isB⟩, isC⟩ := signed
    exact ⟨b, c, rest, rfl, isB, isC⟩
  · cases signed

theorem unescape_plain (plain : c ≠ '\\') : unescapeMountPoint (c :: rest) = c :: unescapeMountPoint rest := by
  rw [unescapeMountPoint, if_neg plain]

theorem unescape_octal (isA : isOctal a = true) (isB : isOctal b = true) (isC : isOctal c = true) :
    unescapeMountPoint ('\\' :: a :: b :: c :: rest) = octalChar a b c :: unescapeMountPoint rest := by
  rw [unescapeMountPoint, if_pos rfl]
  have taken : (a :: b :: c :: rest).take 3 = [a, b, c] := rfl
  rw [taken, decodeEscape_octal isA isB isC]
  rfl

theorem unescape_signed (isB : isOctal b = true) (isC : isOctal c = true) :
    unescapeMountPoint ('\\' :: '+' :: b :: c :: rest) = octalChar '0' b c :: unescapeMountPoint rest := by
  rw [unescapeMountPoint, if_pos rfl]
  have taken : ('+' :: b :: c :: rest).take 3 = ['+', b, c] := rfl
  rw [taken, decodeEscape_signed isB isC]
  rfl

theorem unescape_verbatim (none : startsEscape ('\\' :: rest) = none) (unsigned : isSigned rest = false) :
    unescapeMountPoint ('\\' :: rest) = '\\' :: copying 3 rest := by
  rw [unescapeMountPoint, if_pos rfl]
  have refuses : decodeEscape (rest.take 3) = .none := by
    cases decodes : decodeEscape (rest.take 3) with
    | none => rfl
    | some decoded =>
      rcases decodeEscape_some decodes with ⟨a, b, c, taken, isA, isB, isC⟩ | ⟨b, c, taken, isB, isC⟩
      · have whole : rest = a :: b :: c :: rest.drop 3 := by
          rw [← List.take_append_drop 3 rest, taken]
          rfl
        rw [whole] at none
        simp [startsEscape, isA, isB, isC] at none
      · have whole : rest = '+' :: b :: c :: rest.drop 3 := by
          rw [← List.take_append_drop 3 rest, taken]
          rfl
        rw [whole] at unsigned
        simp [isSigned, isB, isC] at unsigned
  rw [refuses]
  rfl

@[simp] theorem decodeOctal_nil : decodeOctal [] = [] := by
  rw [decodeOctal]
  rfl

theorem decodeOctal_escape {text : Text} {decoded : Char} (starts : startsEscape text = some (decoded, rest)) :
    decodeOctal text = decoded :: decodeOctal rest := by
  rw [decodeOctal]
  split
  · rename_i same
    cases starts.symm.trans same
    rfl
  · rename_i none
    cases starts.symm.trans none

theorem decodeOctal_next (none : startsEscape (c :: rest) = none) : decodeOctal (c :: rest) = c :: decodeOctal rest := by
  rw [decodeOctal]
  split
  · rename_i some
    cases none.symm.trans some
  · rfl

theorem startsEscape_plain (plain : c ≠ '\\') : startsEscape (c :: rest) = none := by
  unfold startsEscape
  split
  · rename_i same
    rw [if_neg]
    rintro ⟨rfl, -⟩
    exact plain (List.cons.inj same).1
  · rfl

end

/-! ## Where they agree -/

/-- Reading as the decoder does, with some characters still to be copied: no
escape starts among those it copies, and no backslash it stops at is followed
by a plus sign and two octal digits. -/
def regular : Nat → Text → Bool
  | _, [] => true
  | n + 1, c :: rest => (startsEscape (c :: rest)).isNone && regular n rest
  | 0, c :: rest =>
    if c = '\\' then
      if (startsEscape (c :: rest)).isSome then regular 0 rest else !isSigned rest && regular 3 rest
    else regular 0 rest

section
variable {a b c : Char} {rest : Text}

theorem copying_digits {n : Nat} (few : n ≤ 3) (isA : isOctal a = true) (isB : isOctal b = true)
    (isC : isOctal c = true) : copying n (a :: b :: c :: rest) = a :: b :: c :: unescapeMountPoint rest := by
  have plain {d : Char} (digit : isOctal d = true) (rest : Text) :
      unescapeMountPoint (d :: rest) = d :: unescapeMountPoint rest := unescape_plain (isOctal_ne digit rfl)
  match n with
  | 0 => simp [plain isA, plain isB, plain isC]
  | 1 => simp [plain isB, plain isC]
  | 2 => simp [plain isC]
  | 3 => simp

theorem regular_digits (isA : isOctal a = true) (isB : isOctal b = true) (isC : isOctal c = true) :
    regular 0 (a :: b :: c :: rest) = regular 0 rest := by
  have plain {d : Char} (digit : isOctal d = true) (rest : Text) : regular 0 (d :: rest) = regular 0 rest := by
    rw [regular, if_neg (isOctal_ne digit rfl)]
  rw [plain isA, plain isB, plain isC]

theorem pay_first {c : Char} {read owed later : Text} (many : 2 ≤ owed.length) (unsigned : '+' ∉ owed)
    (same : c :: read = owed ++ later) :
    ∃ rest, 1 ≤ rest.length ∧ '+' ∉ rest ∧ '+' ≠ c ∧ read = rest ++ later := by
  cases owed with
  | nil => cases many
  | cons x rest =>
    obtain ⟨rfl, later⟩ := List.cons.inj same
    rw [List.mem_cons, not_or] at unsigned
    exact ⟨rest, Nat.le_of_succ_le_succ many, unsigned.2, unsigned.1, later⟩

/-- Once the decoder lags behind the grammar by two characters, it never catches
up, for what it may gain on the way starts with a plus sign it does not owe. -/
theorem never_catches_up (text : Text) {n : Nat} (few : n ≤ 3) (owed : Text) (many : 2 ≤ owed.length)
    (unsigned : '+' ∉ owed) : decodeOctal text ≠ owed ++ copying n text := by
  intro same
  induction text using decodeOctal.induct generalizing n owed with
  | case1 text decoded rest starts ih =>
    obtain ⟨a, b, c, rfl, isA, isB, isC, rfl⟩ := startsEscape_some starts
    rw [decodeOctal_escape starts] at same
    obtain ⟨left, some, plain, apart, later⟩ := pay_first many unsigned same
    cases n with
    | zero =>
      rw [copying_zero, unescape_octal isA isB isC, List.append_cons] at later
      refine ih (Nat.zero_le 3) (left ++ [octalChar a b c]) (by simpa using some) ?_ later
      simpa using ⟨plain, apart⟩
    | succ n =>
      have apart {d : Char} (digit : isOctal d = true) : '+' ≠ d := (isOctal_ne digit rfl).symm
      rw [copying_succ, copying_digits (Nat.le_of_succ_le few) isA isB isC] at later
      refine ih (Nat.zero_le 3) (left ++ ['\\', a, b, c]) (by simp) ?_ (by simpa using later)
      simp [plain, apart isA, apart isB, apart isC]
  | case2 =>
    rw [decodeOctal_nil, copying_nil, List.append_nil] at same
    rw [← same] at many
    cases many
  | case3 c rest none ih =>
    -- The decoder copies this character, and so owes it instead of the first.
    have copies {m : Nat} (fewer : m ≤ 3) (copied : copying n (c :: rest) = c :: copying m rest) : False := by
      rw [decodeOctal_next none, copied] at same
      obtain ⟨left, some, plain, apart, later⟩ := pay_first many unsigned same
      rw [List.append_cons] at later
      exact ih fewer (left ++ [c]) (by simpa using some) (by simpa using ⟨plain, apart⟩) later
    cases n with
    | succ n => exact copies (Nat.le_of_succ_le few) rfl
    | zero =>
      by_cases backslash : c = '\\'
      · subst backslash
        cases signed : isSigned rest with
        | false => exact copies (Nat.le_refl 3) (unescape_verbatim none signed)
        | true =>
          obtain ⟨b, c, more, rfl, -, -⟩ := isSigned_some signed
          rw [decodeOctal_next none, decodeOctal_next (startsEscape_plain (by decide))] at same
          obtain ⟨x, owed, rfl⟩ := List.exists_cons_of_length_pos (Nat.lt_of_lt_of_le Nat.zero_lt_two many)
          obtain ⟨y, owed, rfl⟩ := List.exists_cons_of_length_pos (Nat.lt_of_succ_le (Nat.le_of_succ_le_succ many))
          obtain ⟨-, later⟩ := List.cons.inj same
          obtain ⟨rfl, -⟩ := List.cons.inj later
          simp at unsigned
      · exact copies (Nat.zero_le 3) (unescape_plain backslash)

theorem octalChar_two_digits (isB : isOctal b = true) (isC : isOctal c = true) : octalChar '0' b c ≠ '\\' := by
  intro same
  have boundB := isOctal_bounds isB
  have boundC := isOctal_bounds isC
  have zero : '0'.toNat = 48 := rfl
  have code : (('0'.toNat - '0'.toNat) * 8 + (b.toNat - '0'.toNat)) * 8 + (c.toNat - '0'.toNat) = 92 := by
    have equal := congrArg Char.toNat same
    rw [octalChar, Char.ofNat, dif_pos (by left; omega)] at equal
    exact equal
  omega

/-- While it copies, the decoder agrees with the grammar as long as no escape
starts among what it copies, and from then on as its further reading does. -/
theorem copying_eq_decodeOctal (text : Text) {n : Nat} (few : n ≤ 3) :
    copying n text = decodeOctal text ↔ regular n text = true := by
  -- The induction follows the grammar, for every number of characters still to be copied.
  induction text using decodeOctal.induct generalizing n with
  | case1 text decoded rest starts ih =>
    obtain ⟨a, b, c, rfl, isA, isB, isC, rfl⟩ := startsEscape_some starts
    rw [decodeOctal_escape starts]
    cases n with
    | zero =>
      rw [copying_zero, unescape_octal isA isB isC, List.cons_inj_right, ← copying_zero, ih (Nat.zero_le 3), regular,
        if_pos rfl, starts, Option.isSome_some, if_pos rfl, regular_digits isA isB isC]
    | succ n =>
      -- An escape starts among what is copied. The decoder lags behind from here on.
      have irregular : regular (n + 1) ('\\' :: a :: b :: c :: rest) = false := by simp [regular, starts]
      rw [irregular, copying_succ, copying_digits (Nat.le_of_succ_le few) isA isB isC]
      constructor
      · intro same
        have apart {d : Char} (digit : isOctal d = true) : '+' ≠ d := (isOctal_ne digit rfl).symm
        have later := (List.cons.inj same).2.symm
        have unsigned : '+' ∉ [a, b, c] := by simp [apart isA, apart isB, apart isC]
        exact absurd later (never_catches_up rest (Nat.zero_le 3) [a, b, c] (by simp) unsigned)
      · intro impossible
        cases impossible
  | case2 => simp [regular]
  | case3 c rest none ih =>
    rw [decodeOctal_next none]
    cases n with
    | succ n =>
      rw [copying_succ, List.cons_inj_right, ih (Nat.le_of_succ_le few), regular, none]
      rfl
    | zero =>
      by_cases backslash : c = '\\'
      · subst backslash
        rw [regular, if_pos rfl, none]
        cases signed : isSigned rest with
        | false =>
          rw [copying_zero, unescape_verbatim none signed, List.cons_inj_right, ih (Nat.le_refl 3)]
          rfl
        | true =>
          obtain ⟨b, d, more, rfl, isB, isD⟩ := isSigned_some signed
          -- The decoder makes an escape of what is none in the grammar.
          rw [copying_zero, unescape_signed isB isD]
          constructor
          · intro same
            exact absurd (List.cons.inj same).1 (octalChar_two_digits isB isD)
          · intro impossible
            cases impossible
      · rw [copying_zero, unescape_plain backslash, List.cons_inj_right, ← copying_zero, ih (Nat.zero_le 3), regular,
          if_neg backslash]

end

/-- The decoder follows the grammar on a field exactly if it neither reads a plus
sign as a part of a number nor copies what starts an escape. -/
theorem unescape_eq_decodeOctal (field : Text) :
    unescapeMountPoint field = decodeOctal field ↔ regular 0 field = true :=
  copying_eq_decodeOctal field (Nat.zero_le 3)

/-- What starts right after a dangling backslash is not decoded, and what has a
sign is. -/
theorem unescape_irregular :
    unescapeMountPoint "\\\\040".toList ≠ decodeOctal "\\\\040".toList ∧
      unescapeMountPoint "\\+40".toList ≠ decodeOctal "\\+40".toList := by
  decide +kernel

example : unescapeMountPoint "/srv/with\\040space\\4".toList = "/srv/with space\\4".toList := by decide +kernel

end MinimalVm.Liveness
