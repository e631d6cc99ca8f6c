import MinimalVm.Text.Utf8

/-! JSON values and the byte texts that stand for them.

The grammar is that of RFC 8259, with the blanks it allows between tokens as a
parameter: none gives the compact texts a serializer writes, any whitespace the
texts a parser accepts. Strings and numbers are related to their texts by form
only, which is all that framing depends on.
-/

set_option autoImplicit false

namespace MinimalVm.Json

open MinimalVm.Text

/-- The entries of an object keep their order and may repeat a key. -/
inductive Json where
  | null
  | bool (b : Bool)
  | int (n : Int)
  | float (bits : UInt64)
  | str (s : String)
  | arr (elements : List Json)
  | obj (entries : List (String × Json))

/-! ## Characters -/

def quote : UInt8 := 34
def backslash : UInt8 := 92
def comma : UInt8 := 44
def colon : UInt8 := 58
def openBracket : UInt8 := 91
def closeBracket : UInt8 := 93
def openBrace : UInt8 := 123
def closeBrace : UInt8 := 125

def isBlank (b : UInt8) : Bool := b = 32 || b = 9 || b = 10 || b = 13

def isDigit (b : UInt8) : Bool := 48 ≤ b && b ≤ 57

def isHexDigit (b : UInt8) : Bool := isDigit b || 65 ≤ b && b ≤ 70 || 97 ≤ b && b ≤ 102

/-- A byte that stands for itself in a string: not a control character. -/
def isPlain (b : UInt8) : Bool := 32 ≤ b && b ≠ quote && b ≠ backslash

/-- The letters of the escapes of one letter: quote, backslash, slash and bfnrt. -/
def isEscape (b : UInt8) : Bool :=
  b = quote || b = backslash || b = 47 || b = 98 || b = 102 || b = 110 || b = 114 || b = 116

/-! ## Texts -/

inductive Chars : List UInt8 → Prop
  | nil : Chars []
  | plain {b : UInt8} {rest : List UInt8} : isPlain b = true → Chars rest → Chars (b :: rest)
  | escape {b : UInt8} {rest : List UInt8} : isEscape b = true → Chars rest →
      Chars (backslash :: b :: rest)
  | unicode {a b c d : UInt8} {rest : List UInt8} : isHexDigit a = true → isHexDigit b = true →
      isHexDigit c = true → isHexDigit d = true → Chars rest →
      Chars (backslash :: 117 :: a :: b :: c :: d :: rest)

inductive StringText : List UInt8 → Prop
  | quoted {chars : List UInt8} : Chars chars → StringText (quote :: chars ++ [quote])

def Digits (digits : List UInt8) : Prop := digits ≠ [] ∧ ∀ b ∈ digits, isDigit b = true

/-- An integer part has no leading zero. -/
def IntPart (digits : List UInt8) : Prop := Digits digits ∧ (digits.head? = some 48 → digits = [48])

inductive Fraction : List UInt8 → Prop
  | none : Fraction []
  | some {digits : List UInt8} : Digits digits → Fraction (46 :: digits)

inductive Exponent : List UInt8 → Prop
  | none : Exponent []
  | some {e : UInt8} {sign digits : List UInt8} : e = 69 ∨ e = 101 → sign = [] ∨ sign = [43] ∨ sign = [45] →
      Digits digits → Exponent (e :: sign ++ digits)

inductive NumberText : List UInt8 → Prop
  | parts {sign digits fraction exponent : List UInt8} : sign = [] ∨ sign = [45] → IntPart digits →
      Fraction fraction → Exponent exponent → NumberText (sign ++ digits ++ fraction ++ exponent)

/-- The parts of a text: a value, or what stands between the brackets of a
non-empty array or object. -/
inductive Node where
  | value (v : Json)
  | elements (elements : List Json)
  | members (entries : List (String × Json))

/-- The texts of a value, with the blanks allowed between tokens. -/
inductive Text (gap : List UInt8 → Prop) : Node → List UInt8 → Prop
  | null : Text gap (.value .null) [110, 117, 108, 108]
  | true : Text gap (.value (.bool true)) [116, 114, 117, 101]
  | false : Text gap (.value (.bool false)) [102, 97, 108, 115, 101]
  | int {n : Int} {b : List UInt8} : NumberText b → Text gap (.value (.int n)) b
  | float {bits : UInt64} {b : List UInt8} : NumberText b → Text gap (.value (.float bits)) b
  | str {s : String} {b : List UInt8} : StringText b → Text gap (.value (.str s)) b
  | emptyArr {g : List UInt8} : gap g → Text gap (.value (.arr [])) (openBracket :: g ++ [closeBracket])
  | arr {elements : List Json} {b : List UInt8} : Text gap (.elements elements) b →
      Text gap (.value (.arr elements)) (openBracket :: b ++ [closeBracket])
  | emptyObj {g : List UInt8} : gap g → Text gap (.value (.obj [])) (openBrace :: g ++ [closeBrace])
  | obj {entries : List (String × Json)} {b : List UInt8} : Text gap (.members entries) b →
      Text gap (.value (.obj entries)) (openBrace :: b ++ [closeBrace])
  | lastElement {v : Json} {g b h : List UInt8} : gap g → Text gap (.value v) b → gap h →
      Text gap (.elements [v]) (g ++ b ++ h)
  | element {v : Json} {elements : List Json} {g b h rest : List UInt8} : gap g → Text gap (.value v) b →
      gap h → Text gap (.elements elements) rest →
      Text gap (.elements (v :: elements)) (g ++ b ++ h ++ [comma] ++ rest)
  | lastMember {name : String} {v : Json} {g key h i b j : List UInt8} : gap g → StringText key → gap h →
      gap i → Text gap (.value v) b → gap j →
      Text gap (.members [(name, v)]) (g ++ key ++ h ++ [colon] ++ i ++ b ++ j)
  | member {name : String} {v : Json} {entries : List (String × Json)} {g key h i b j rest : List UInt8} :
      gap g → StringText key → gap h → gap i → Text gap (.value v) b → gap j →
      Text gap (.members entries) rest →
      Text gap (.members ((name, v) :: entries)) (g ++ key ++ h ++ [colon] ++ i ++ b ++ j ++ [comma] ++ rest)

def Blanks (g : List UInt8) : Prop := ∀ b ∈ g, isBlank b = true

def NoBlanks (g : List UInt8) : Prop := g = []

theorem noBlanks : NoBlanks [] := rfl

abbrev CompactText (v : Json) : List UInt8 → Prop := Text NoBlanks (.value v)

/-- One value with blanks around and between its tokens. -/
inductive JsonText : List UInt8 → Prop
  | padded {v : Json} {g b h : List UInt8} : Blanks g → Text Blanks (.value v) b → Blanks h →
      JsonText (g ++ b ++ h)

theorem Text.mono {gap wider : List UInt8 → Prop} (more : ∀ g, gap g → wider g) {node : Node}
    {b : List UInt8} (text : Text gap node b) : Text wider node b := by
  induction text with
  | null => exact .null
  | true => exact .true
  | false => exact .false
  | int number => exact .int number
  | float number => exact .float number
  | str string => exact .str string
  | emptyArr blank => exact .emptyArr (more _ blank)
  | arr _ ih => exact .arr ih
  | emptyObj blank => exact .emptyObj (more _ blank)
  | obj _ ih => exact .obj ih
  | lastElement before _ after ih => exact .lastElement (more _ before) ih (more _ after)
  | element before _ after _ first rest => exact .element (more _ before) first (more _ after) rest
  | lastMember before key beforeColon afterColon _ after ih =>
    exact .lastMember (more _ before) key (more _ beforeColon) (more _ afterColon) ih (more _ after)
  | member before key beforeColon afterColon _ after _ first rest =>
    exact .member (more _ before) key (more _ beforeColon) (more _ afterColon) first (more _ after) rest

theorem JsonText.of_compact {v : Json} {b : List UInt8} (text : CompactText v b) : JsonText b := by
  have wider : Text Blanks (.value v) b := text.mono fun g (none : g = []) => none ▸ nofun
  simpa using JsonText.padded (g := []) (h := []) nofun wider nofun

/-! ## Texts of one line -/

theorem newline_digits {digits : List UInt8} (text : Digits digits) : newline ∉ digits := fun member =>
  absurd (text.2 newline member) (by decide)

theorem newline_number {b : List UInt8} (text : NumberText b) : newline ∉ b := by
  cases text with
  | parts sign digits fraction exponent =>
    simp only [List.mem_append, not_or]
    refine ⟨⟨⟨?_, newline_digits digits.1⟩, ?_⟩, ?_⟩
    · rcases sign with rfl | rfl <;> decide
    · cases fraction with
      | none => exact List.not_mem_nil
      | some digits =>
        rw [List.mem_cons, not_or]
        exact ⟨by decide, newline_digits digits⟩
    · cases exponent with
      | none => exact List.not_mem_nil
      | some letter sign digits =>
        simp only [List.cons_append, List.mem_cons, List.mem_append, not_or]
        refine ⟨?_, ?_, newline_digits digits⟩
        · rcases letter with rfl | rfl <;> decide
        · rcases sign with rfl | rfl | rfl <;> decide

theorem newline_chars {chars : List UInt8} (text : Chars chars) : newline ∉ chars := by
  induction text with
  | nil => exact List.not_mem_nil
  | plain plain _ ih =>
    rw [List.mem_cons, not_or]
    refine ⟨?_, ih⟩
    rintro rfl
    exact absurd plain (by decide)
  | escape letter _ ih =>
    simp only [List.mem_cons, not_or]
    refine ⟨by decide, ?_, ih⟩
    rintro rfl
    exact absurd letter (by decide)
  | unicode first second third fourth _ ih =>
    simp only [List.mem_cons, not_or]
    refine ⟨by decide, by decide, ?_, ?_, ?_, ?_, ih⟩ <;> rintro rfl
    · exact absurd first (by decide)
    · exact absurd second (by decide)
    · exact absurd third (by decide)
    · exact absurd fourth (by decide)

theorem newline_string {b : List UInt8} (text : StringText b) : newline ∉ b := by
  cases text with
  | quoted chars =>
    simp only [List.cons_append, List.mem_cons, List.mem_append, List.not_mem_nil, not_or, or_false]
    exact ⟨by decide, newline_chars chars, by decide⟩

theorem newline_text {gap : List UInt8 → Prop} (blanks : ∀ g, gap g → newline ∉ g) {node : Node}
    {b : List UInt8} (text : Text gap node b) : newline ∉ b := by
  induction text with
  | null | true | false => decide
  | int number | float number => exact newline_number number
  | str string => exact newline_string string
  | emptyArr blank | emptyObj blank =>
    simp only [List.cons_append, List.mem_cons, List.mem_append, List.not_mem_nil, not_or, or_false]
    exact ⟨by decide, blanks _ blank, by decide⟩
  | arr _ ih | obj _ ih =>
    simp only [List.cons_append, List.mem_cons, List.mem_append, List.not_mem_nil, not_or, or_false]
    exact ⟨by decide, ih, by decide⟩
  | lastElement before _ after ih =>
    simp only [List.mem_append, not_or]
    exact ⟨⟨blanks _ before, ih⟩, blanks _ after⟩
  | element before _ after _ first rest =>
    simp only [List.mem_append, List.mem_singleton, not_or]
    exact ⟨⟨⟨⟨blanks _ before, first⟩, blanks _ after⟩, by decide⟩, rest⟩
  | lastMember before key beforeColon afterColon _ after ih =>
    simp only [List.mem_append, List.mem_singleton, not_or]
    exact ⟨⟨⟨⟨⟨⟨blanks _ before, newline_string key⟩, blanks _ beforeColon⟩, by decide⟩,
      blanks _ afterColon⟩, ih⟩, blanks _ after⟩
  | member before key beforeColon afterColon _ after _ first rest =>
    simp only [List.mem_append, List.mem_singleton, not_or]
    exact ⟨⟨⟨⟨⟨⟨⟨⟨blanks _ before, newline_string key⟩, blanks _ beforeColon⟩, by decide⟩,
      blanks _ afterColon⟩, first⟩, blanks _ after⟩, by decide⟩, rest⟩

/-- Compact text is one line: no string in it can forge a line break. -/
theorem newline_compact {v : Json} {b : List UInt8} (text : CompactText v b) : newline ∉ b :=
  newline_text (fun g (none : g = []) => none ▸ List.not_mem_nil) text

theorem object_nonempty {gap : List UInt8 → Prop} {entries : List (String × Json)} {b : List UInt8}
    (text : Text gap (.value (.obj entries)) b) : b ≠ [] := by
  cases text <;> exact List.cons_ne_nil _ _

theorem object_ends {gap : List UInt8 → Prop} {entries : List (String × Json)} {b : List UInt8}
    (text : Text gap (.value (.obj entries)) b) : ∃ first, b = first ++ [closeBrace] := by
  cases text <;> exact ⟨_, rfl⟩

end MinimalVm.Json
