import MinimalVm.Json.Grammar

/-! Writing a JSON value without blanks.

Control characters, quotes and backslashes in strings are escaped, so what is
written is compact text of the value and stands on one line. The text of a
floating-point number is a parameter.
-/

set_option autoImplicit false

namespace MinimalVm.Json

open MinimalVm.Text

def hexDigit (n : Nat) : UInt8 := if n < 10 then UInt8.ofNat (48 + n) else UInt8.ofNat (87 + n)

def decimal (n : Nat) : List UInt8 :=
  if n < 10 then [hexDigit n] else decimal (n / 10) ++ [hexDigit (n % 10)]

def printInt (n : Int) : List UInt8 := (if n < 0 then [45] else []) ++ decimal n.natAbs

def escape (b : UInt8) : List UInt8 :=
  if b = quote ∨ b = backslash then [backslash, b]
  else if b = 8 then [backslash, 98]
  else if b = 9 then [backslash, 116]
  else if b = 10 then [backslash, 110]
  else if b = 12 then [backslash, 102]
  else if b = 13 then [backslash, 114]
  else if b < 32 then [backslash, 117, 48, 48, hexDigit (b.toNat / 16), hexDigit (b.toNat % 16)]
  else [b]

def printStr (s : String) : List UInt8 := quote :: (utf8 s).flatMap escape ++ [quote]

variable (printFloat : UInt64 → List UInt8)

mutual

def print : Json → List UInt8
  | .null => [110, 117, 108, 108]
  | .bool true => [116, 114, 117, 101]
  | .bool false => [102, 97, 108, 115, 101]
  | .int n => printInt n
  | .float bits => printFloat bits
  | .str s => printStr s
  | .arr [] => [openBracket, closeBracket]
  | .arr (v :: elements) => openBracket :: (print v ++ printElements elements) ++ [closeBracket]
  | .obj [] => [openBrace, closeBrace]
  | .obj ((name, v) :: entries) =>
    openBrace :: (printStr name ++ [colon] ++ print v ++ printEntries entries) ++ [closeBrace]

def printElements : List Json → List UInt8
  | [] => []
  | v :: elements => [comma] ++ print v ++ printElements elements

def printEntries : List (String × Json) → List UInt8
  | [] => []
  | (name, v) :: entries => [comma] ++ printStr name ++ [colon] ++ print v ++ printEntries entries

end

/-! ## What is written is compact text -/

theorem hexDigit_hex {n : Nat} (small : n < 16) : isHexDigit (hexDigit n) = true := by
  have all : ∀ m : Fin 16, isHexDigit (hexDigit m) = true := by decide
  exact all ⟨n, small⟩

theorem hexDigit_digit {n : Nat} (small : n < 10) : isDigit (hexDigit n) = true := by
  have all : ∀ m : Fin 10, isDigit (hexDigit m) = true := by decide
  exact all ⟨n, small⟩

theorem hexDigit_zero {n : Nat} (small : n < 10) (zero : hexDigit n = 48) : n = 0 := by
  have all : ∀ m : Fin 10, hexDigit m = 48 → m.val = 0 := by decide
  exact all ⟨n, small⟩ zero

theorem decimal_digits (n : Nat) : Digits (decimal n) := by
  fun_induction decimal n with
  | case1 n small => exact ⟨List.cons_ne_nil _ _, fun b member => List.mem_singleton.mp member ▸ hexDigit_digit small⟩
  | case2 n large ih =>
    refine ⟨by simp, fun b member => ?_⟩
    rcases List.mem_append.mp member with first | last
    · exact ih.2 b first
    · exact List.mem_singleton.mp last ▸ hexDigit_digit (Nat.mod_lt n (by decide))

theorem decimal_leading {n : Nat} (positive : 0 < n) : (decimal n).head? ≠ some 48 := by
  fun_induction decimal n with
  | case1 n small => exact fun zero => Nat.ne_of_gt positive (hexDigit_zero small (Option.some.inj zero))
  | case2 n large ih =>
    obtain ⟨first, starts⟩ := Option.isSome_iff_exists.mp (List.isSome_head?.mpr (decimal_digits (n / 10)).1)
    rw [List.head?_append, starts, Option.some_or, ← starts]
    exact ih (by omega)

theorem printInt_number (n : Int) : NumberText (printInt n) := by
  have whole : IntPart (decimal n.natAbs) := by
    refine ⟨decimal_digits _, fun zero => ?_⟩
    rcases Nat.eq_zero_or_pos n.natAbs with none | positive
    · rw [none, decimal, if_pos (by decide)]
      rfl
    · exact absurd zero (decimal_leading positive)
  have sign : (if n < 0 then [45] else []) = ([] : List UInt8) ∨ (if n < 0 then [45] else []) = [(45 : UInt8)] := by
    split
    · exact .inr rfl
    · exact .inl rfl
  simpa [printInt] using NumberText.parts sign whole .none .none

theorem zero_number : NumberText [48] := by
  have zero : IntPart [48] := ⟨⟨List.cons_ne_nil _ _, fun b member => List.mem_singleton.mp member ▸ rfl⟩, fun _ => rfl⟩
  exact .parts (.inl rfl : ([] : List UInt8) = [] ∨ _) zero .none .none

theorem escape_chars (b : UInt8) {rest : List UInt8} (text : Chars rest) : Chars (escape b ++ rest) := by
  unfold escape
  split
  · rename_i special
    exact .escape (by rcases special with rfl | rfl <;> decide) text
  iterate 5
    split
    · exact .escape (by decide) text
  split
  · exact .unicode (by decide) (by decide) (hexDigit_hex (by have := b.toNat_lt; omega))
      (hexDigit_hex (Nat.mod_lt _ (by decide))) text
  · rename_i special _ _ _ _ _ control
    rw [not_or] at special
    refine .plain ?_ text
    simp only [isPlain, Bool.and_eq_true, decide_eq_true_eq]
    exact ⟨⟨UInt8.not_lt.mp control, special.1⟩, special.2⟩

theorem printStr_text (s : String) : StringText (printStr s) := by
  have chars (bytes : List UInt8) : Chars (bytes.flatMap escape) := by
    induction bytes with
    | nil => exact .nil
    | cons b bytes ih => exact escape_chars b ih
  exact .quoted (chars (utf8 s))

variable {printFloat : UInt64 → List UInt8}

mutual

theorem print_compact (floats : ∀ bits, NumberText (printFloat bits)) : ∀ v,
    CompactText v (print printFloat v)
  | .null => by rw [print]; exact .null
  | .bool true => by rw [print]; exact .true
  | .bool false => by rw [print]; exact .false
  | .int n => by rw [print]; exact .int (printInt_number n)
  | .float bits => by rw [print]; exact .float (floats bits)
  | .str s => by rw [print]; exact .str (printStr_text s)
  | .arr [] => by rw [print]; exact .emptyArr noBlanks
  | .arr (v :: elements) => by
    rw [print]
    exact .arr (printElements_compact floats elements (print_compact floats v))
  | .obj [] => by rw [print]; exact .emptyObj noBlanks
  | .obj ((name, v) :: entries) => by
    rw [print]
    exact .obj (printEntries_compact floats entries name (print_compact floats v))

theorem printElements_compact (floats : ∀ bits, NumberText (printFloat bits)) : ∀ elements {v b},
    CompactText v b → Text NoBlanks (.elements (v :: elements)) (b ++ printElements printFloat elements)
  | [], v, b, value => by
    rw [printElements]
    exact .lastElement (g := []) noBlanks value noBlanks
  | w :: elements, v, b, value => by
    have rest := printElements_compact floats elements (print_compact floats w)
    simpa [printElements] using Text.element noBlanks value noBlanks rest

theorem printEntries_compact (floats : ∀ bits, NumberText (printFloat bits)) : ∀ entries name {v b},
    CompactText v b → Text NoBlanks (.members ((name, v) :: entries))
      (printStr name ++ [colon] ++ b ++ printEntries printFloat entries)
  | [], name, v, b, value => by
    have last : Text NoBlanks (.members [(name, v)]) _ :=
      .lastMember noBlanks (printStr_text name) noBlanks noBlanks value noBlanks
    simpa [printEntries] using last
  | (other, w) :: entries, name, v, b, value => by
    have rest := printEntries_compact floats entries other (print_compact floats w)
    have first : Text NoBlanks (.members ((name, v) :: (other, w) :: entries)) _ :=
      .member noBlanks (printStr_text name) noBlanks noBlanks value noBlanks rest
    simpa [printEntries] using first

end

end MinimalVm.Json
