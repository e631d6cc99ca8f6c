import MinimalVm.Json.Grammar

/-! How deep a byte of a JSON text is nested.

A scanner counts open brackets outside strings. Every text leaves the count as
it was and never falls below it on the way, so an object that is cut short
leaves a bracket open and is no text at all.
-/

set_option autoImplicit false

namespace MinimalVm.Json

open MinimalVm.Text

/-- Where a byte stands: between tokens, in a string, or after a backslash in one. -/
inductive Place where
  | outside
  | inside
  | escaped
  deriving DecidableEq, Repr

structure Scan where
  depth : Nat
  place : Place
  deriving DecidableEq, Repr

def Scan.next (s : Scan) (b : UInt8) : Scan :=
  match s.place with
  | .escaped => ⟨s.depth, .inside⟩
  | .inside =>
    if b = quote then ⟨s.depth, .outside⟩ else if b = backslash then ⟨s.depth, .escaped⟩ else s
  | .outside =>
    if b = quote then ⟨s.depth, .inside⟩
    else if b = openBracket ∨ b = openBrace then ⟨s.depth + 1, .outside⟩
    else if b = closeBracket ∨ b = closeBrace then ⟨s.depth - 1, .outside⟩
    else s

def scan (s : Scan) (bytes : List UInt8) : Scan := bytes.foldl Scan.next s

@[simp] theorem scan_nil (s : Scan) : scan s [] = s := rfl

@[simp] theorem scan_cons (s : Scan) (b : UInt8) (bytes : List UInt8) :
    scan s (b :: bytes) = scan (s.next b) bytes := rfl

@[simp] theorem scan_append (s : Scan) (first rest : List UInt8) :
    scan s (first ++ rest) = scan (scan s first) rest := List.foldl_append

/-- Bytes that close every bracket they open and no other, read from one place. -/
structure Balanced (place : Place) (bytes : List UInt8) : Prop where
  closed : ∀ depth, scan ⟨depth, place⟩ bytes = ⟨depth, place⟩
  above : ∀ depth first, first <+: bytes → depth ≤ (scan ⟨depth, place⟩ first).depth

def Neutral (place : Place) (b : UInt8) : Prop := ∀ depth, Scan.next ⟨depth, place⟩ b = ⟨depth, place⟩

namespace Balanced

variable {place : Place} {first rest inner : List UInt8}

theorem nil : Balanced place [] where
  closed _ := rfl
  above depth first isPrefix := by
    rw [List.prefix_nil.mp isPrefix]
    exact Nat.le_refl depth

theorem append (one : Balanced place first) (two : Balanced place rest) : Balanced place (first ++ rest) where
  closed depth := by rw [scan_append, one.closed, two.closed]
  above depth part isPrefix := by
    -- A prefix ends in the first part or goes beyond it.
    rcases List.prefix_or_prefix_of_prefix isPrefix (List.prefix_append first rest) with early | ⟨late, rfl⟩
    · exact one.above depth part early
    · rw [scan_append, one.closed]
      exact two.above depth late ((List.prefix_append_right_inj first).mp isPrefix)

theorem neutral (bytes : List UInt8) (neutral : ∀ b ∈ bytes, Neutral place b) : Balanced place bytes where
  closed depth := by
    induction bytes with
    | nil => rfl
    | cons b bytes ih =>
      rw [scan_cons, neutral b List.mem_cons_self depth]
      exact ih fun c member => neutral c (List.mem_cons_of_mem b member)
  above depth part isPrefix := by
    induction part generalizing bytes with
    | nil => exact Nat.le_refl depth
    | cons b part ih =>
      obtain ⟨bytes', rfl, shorter⟩ := List.cons_prefix_iff.mp isPrefix
      rw [scan_cons, neutral b List.mem_cons_self depth]
      exact ih bytes' (fun c member => neutral c (List.mem_cons_of_mem b member)) shorter

theorem wrap {opening closing : UInt8} {within : Place} (deeper : Nat → Nat)
    (opens : ∀ depth, Scan.next ⟨depth, place⟩ opening = ⟨deeper depth, within⟩)
    (closes : ∀ depth, Scan.next ⟨deeper depth, within⟩ closing = ⟨depth, place⟩)
    (below : ∀ depth, depth ≤ deeper depth) (balanced : Balanced within inner) :
    Balanced place (opening :: inner ++ [closing]) := by
  have closed (depth : Nat) : scan ⟨depth, place⟩ (opening :: inner ++ [closing]) = ⟨depth, place⟩ := by
    rw [List.cons_append, scan_cons, opens, scan_append, balanced.closed, scan_cons, closes, scan_nil]
  refine ⟨closed, fun depth part isPrefix => ?_⟩
  rcases List.prefix_concat_iff.mp isPrefix with whole | early
  · exact Nat.le_of_eq (congrArg Scan.depth (whole ▸ closed depth)).symm
  · rcases List.prefix_cons_iff.mp early with rfl | ⟨part, rfl, shorter⟩
    · exact Nat.le_refl depth
    · rw [scan_cons, opens]
      exact Nat.le_trans (below depth) (balanced.above (deeper depth) part shorter)

end Balanced

/-! ## Texts are balanced -/

theorem neutral_outside {b : UInt8} (plain : b ≠ quote ∧ b ≠ openBracket ∧ b ≠ openBrace ∧
    b ≠ closeBracket ∧ b ≠ closeBrace) : Neutral .outside b := fun depth => by
  simp [Scan.next, plain]

theorem neutral_plain {b : UInt8} (plain : isPlain b = true) : Neutral .inside b := fun depth => by
  simp only [isPlain, Bool.and_eq_true, decide_eq_true_eq] at plain
  simp [Scan.next, plain]

theorem balanced_letters {word : List UInt8} (letters : word.all (fun b => 97 ≤ b && b ≤ 122) = true) :
    Balanced .outside word :=
  .neutral word fun b member => neutral_outside (by
    have letter := List.all_eq_true.mp letters b member
    refine ⟨?_, ?_, ?_, ?_, ?_⟩ <;> rintro rfl <;> exact absurd letter (by decide))

theorem balanced_digits {digits : List UInt8} (text : Digits digits) : Balanced .outside digits :=
  .neutral digits fun b member => neutral_outside (by
    have digit := text.2 b member
    refine ⟨?_, ?_, ?_, ?_, ?_⟩ <;> rintro rfl <;> exact absurd digit (by decide))

theorem neutral_sign {b : UInt8} (sign : b = 43 ∨ b = 45 ∨ b = 46 ∨ b = 69 ∨ b = 101) : Neutral .outside b :=
  neutral_outside (by rcases sign with rfl | rfl | rfl | rfl | rfl <;> decide)

theorem Balanced.single {place : Place} {b : UInt8} (neutral : Neutral place b) : Balanced place [b] :=
  .neutral [b] fun _ member => List.mem_singleton.mp member ▸ neutral

theorem balanced_sign {sign : List UInt8} (text : sign = [] ∨ sign = [43] ∨ sign = [45]) :
    Balanced .outside sign := by
  rcases text with rfl | rfl | rfl
  · exact .nil
  · exact .single (neutral_sign (by decide))
  · exact .single (neutral_sign (by decide))

theorem balanced_fraction {b : List UInt8} (text : Fraction b) : Balanced .outside b := by
  cases text with
  | none => exact .nil
  | some digits => exact Balanced.append (.single (neutral_sign (by decide))) (balanced_digits digits)

theorem balanced_exponent {b : List UInt8} (text : Exponent b) : Balanced .outside b := by
  cases text with
  | none => exact .nil
  | @some e sign digits letter signText digitsText =>
    have first : Balanced .outside [e] := .single (neutral_sign (by rcases letter with rfl | rfl <;> decide))
    exact Balanced.append (first.append (balanced_sign signText)) (balanced_digits digitsText)

theorem balanced_number {b : List UInt8} (text : NumberText b) : Balanced .outside b := by
  cases text with
  | parts sign digits fraction exponent =>
    have signed := balanced_sign (sign.elim .inl fun minus => .inr (.inr minus))
    exact ((signed.append (balanced_digits digits.1)).append (balanced_fraction fraction)).append
      (balanced_exponent exponent)

theorem plain_of_hex {b : UInt8} (hex : isHexDigit b = true) : isPlain b = true := by
  simp only [isHexDigit, isDigit, isPlain, quote, backslash, Bool.or_eq_true, Bool.and_eq_true,
    decide_eq_true_eq] at *
  grind

theorem balanced_escape (b : UInt8) : Balanced .inside [backslash, b] where
  closed _ := rfl
  above depth part isPrefix := by
    rcases List.prefix_cons_iff.mp isPrefix with rfl | ⟨part, rfl, last⟩
    · exact Nat.le_refl depth
    · rcases List.prefix_cons_iff.mp last with rfl | ⟨part, rfl, none⟩
      · exact Nat.le_refl depth
      · rw [List.prefix_nil.mp none]
        exact Nat.le_refl depth

theorem balanced_chars {chars : List UInt8} (text : Chars chars) : Balanced .inside chars := by
  induction text with
  | nil => exact .nil
  | plain plain _ ih => exact Balanced.append (.single (neutral_plain plain)) ih
  | escape _ _ ih => exact (balanced_escape _).append ih
  | unicode first second third fourth _ ih =>
    have digit {b : UInt8} (hex : isHexDigit b = true) : Balanced .inside [b] :=
      .single (neutral_plain (plain_of_hex hex))
    exact (balanced_escape 117).append ((digit first).append ((digit second).append
      ((digit third).append ((digit fourth).append ih))))

theorem balanced_string {b : List UInt8} (text : StringText b) : Balanced .outside b := by
  cases text with
  | quoted chars =>
    exact .wrap id (fun _ => rfl) (fun _ => rfl) Nat.le_refl (balanced_chars chars)

theorem balanced_blanks {g : List UInt8} (blanks : Blanks g) : Balanced .outside g :=
  .neutral g fun b member => neutral_outside (by
    have blank := blanks b member
    refine ⟨?_, ?_, ?_, ?_, ?_⟩ <;> rintro rfl <;> exact absurd blank (by decide))

theorem Balanced.brackets {inner : List UInt8} (balanced : Balanced .outside inner) :
    Balanced .outside (openBracket :: inner ++ [closeBracket]) :=
  .wrap (· + 1) (fun _ => rfl) (fun _ => rfl) (fun depth => Nat.le_succ depth) balanced

theorem Balanced.braces {inner : List UInt8} (balanced : Balanced .outside inner) :
    Balanced .outside (openBrace :: inner ++ [closeBrace]) :=
  .wrap (· + 1) (fun _ => rfl) (fun _ => rfl) (fun depth => Nat.le_succ depth) balanced

theorem balanced_text {gap : List UInt8 → Prop} (blanks : ∀ g, gap g → Balanced .outside g) {node : Node}
    {b : List UInt8} (text : Text gap node b) : Balanced .outside b := by
  have separator : Balanced .outside [comma] := .single (neutral_outside (by decide))
  have colonOnly : Balanced .outside [colon] := .single (neutral_outside (by decide))
  induction text with
  | null | true | false => exact balanced_letters (by decide)
  | int number | float number => exact balanced_number number
  | str string => exact balanced_string string
  | emptyArr blank => exact (blanks _ blank).brackets
  | arr _ ih => exact ih.brackets
  | emptyObj blank => exact (blanks _ blank).braces
  | obj _ ih => exact ih.braces
  | lastElement before _ after ih => exact ((blanks _ before).append ih).append (blanks _ after)
  | element before _ after _ first rest =>
    exact ((((blanks _ before).append first).append (blanks _ after)).append separator).append rest
  | lastMember before key beforeColon afterColon _ after ih =>
    exact ((((((blanks _ before).append (balanced_string key)).append (blanks _ beforeColon)).append
      colonOnly).append (blanks _ afterColon)).append ih).append (blanks _ after)
  | member before key beforeColon afterColon _ after _ first rest =>
    exact ((((((((blanks _ before).append (balanced_string key)).append (blanks _ beforeColon)).append
      colonOnly).append (blanks _ afterColon)).append first).append (blanks _ after)).append
      separator).append rest

theorem balanced_jsonText {b : List UInt8} (text : JsonText b) : Balanced .outside b := by
  cases text with
  | padded before value after =>
    exact ((balanced_blanks before).append (balanced_text (fun _ => balanced_blanks) value)).append
      (balanced_blanks after)

/-! ## Objects cut short -/

/-- An object that ends early is not a text. -/
theorem not_text_of_cut {gap : List UInt8 → Prop} (blanks : ∀ g, gap g → Balanced .outside g)
    {entries : List (String × Json)} {b part : List UInt8} (text : Text gap (.value (.obj entries)) b)
    (isPrefix : part <+: b) (nonempty : part ≠ []) (strict : part ≠ b) : ¬ JsonText part := by
  intro whole
  have shape : ∃ inner, b = openBrace :: inner ++ [closeBrace] ∧ Balanced .outside inner := by
    cases text with
    | emptyObj blank => exact ⟨_, rfl, blanks _ blank⟩
    | obj members => exact ⟨_, rfl, balanced_text blanks members⟩
  obtain ⟨inner, rfl, balanced⟩ := shape
  have early := (List.prefix_concat_iff.mp isPrefix).resolve_left strict
  rcases List.prefix_cons_iff.mp early with rfl | ⟨rest, rfl, shorter⟩
  · exact nonempty rfl
  · -- The first brace is open until the end, but a text would have closed it.
    have above := balanced.above 1 rest shorter
    have closed := (balanced_jsonText whole).closed 0
    have entered : scan ⟨0, .outside⟩ (openBrace :: rest) = scan ⟨1, .outside⟩ rest := rfl
    rw [← entered, closed] at above
    exact absurd above (by decide)

theorem not_text_of_cut_compact {entries : List (String × Json)} {b part : List UInt8}
    (text : CompactText (.obj entries) b) (isPrefix : part <+: b) (nonempty : part ≠ []) (strict : part ≠ b) :
    ¬ JsonText part :=
  not_text_of_cut (fun g (none : g = []) => none ▸ .nil) text isPrefix nonempty strict

end MinimalVm.Json
