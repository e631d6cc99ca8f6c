import MinimalVm.Text.Cuts
import Mathlib.Data.List.Basic

/-! Cutting a list into words and a text into lines.

A word is a maximal run without separators, any number of which may stand
between two words. Cutting at one separator and cutting the rest are the same
thing, which is all that later proofs need to know.
-/

set_option autoImplicit false

namespace MinimalVm.Text

section
variable {α : Type} {p : α → Bool}

/-- The maximal non-empty runs without separators, in order. -/
def words (p : α → Bool) (l : List α) : List (List α) := (l.splitOnP p).filter (!·.isEmpty)

def Solid (p : α → Bool) (w : List α) : Prop := ∀ a ∈ w, p a = false

instance decidableSolid (p : α → Bool) (w : List α) : Decidable (Solid p w) :=
  inferInstanceAs (Decidable (∀ a ∈ w, p a = false))

theorem solid_cons {a : α} {w : List α} : Solid p (a :: w) ↔ p a = false ∧ Solid p w := List.forall_mem_cons

/-- Induction over the runs of a list: every list is solid or is a solid run, a
separator and a shorter list. -/
theorem runs_induction (p : α → Bool) {P : List α → Prop} (last : ∀ w, Solid p w → P w)
    (run : ∀ w sep t, Solid p w → p sep = true → P t → P (w ++ sep :: t)) (l : List α) : P l := by
  induction l generalizing P with
  | nil => exact last [] nofun
  | cons a l ih =>
    cases sep : p a with
    | true => exact run [] a l nofun sep (ih last run)
    | false =>
      -- What is solid stays solid with this element in front of it.
      refine (ih (P := fun l => P (a :: l) ∧ P l) (fun w solid => ?_) (fun w s t solid sep' rest => ?_)).1
      · exact ⟨last (a :: w) (solid_cons.mpr ⟨sep, solid⟩), last w solid⟩
      · exact ⟨run (a :: w) s t (solid_cons.mpr ⟨sep, solid⟩) sep' rest.2, run w s t solid sep' rest.2⟩

@[simp] theorem words_nil (p : α → Bool) : words p [] = [] := rfl

theorem words_solid {w : List α} (solid : Solid p w) (nonempty : w ≠ []) : words p w = [w] := by
  simp [words, List.splitOnP_eq_singleton solid, nonempty]

theorem words_append_cons (l r : List α) {sep : α} (separates : p sep = true) :
    words p (l ++ sep :: r) = words p l ++ words p r := by
  rw [words, List.splitOnP_append_cons l r separates, List.filter_append]
  rfl

theorem words_spec {l w : List α} (member : w ∈ words p l) : Solid p w ∧ w ≠ [] := by
  induction l using runs_induction p with
  | last v solid =>
    by_cases empty : v = []
    · subst empty
      cases member
    · rw [words_solid solid empty] at member
      cases List.mem_singleton.mp member
      exact ⟨solid, empty⟩
  | run v sep t solid separates ih =>
    rw [words_append_cons v t separates] at member
    rcases List.mem_append.mp member with here | later
    · by_cases empty : v = []
      · subst empty
        cases here
      · rw [words_solid solid empty] at here
        cases List.mem_singleton.mp here
        exact ⟨solid, empty⟩
    · exact ih later

theorem words_map {β : Type} {q : β → Bool} {f : List α → List β} (sepTo : α → β)
    (sepKept : ∀ sep, p sep = true → q (sepTo sep) = true)
    (pieces : ∀ w sep t, p sep = true → f (w ++ sep :: t) = f w ++ sepTo sep :: f t)
    (solidKept : ∀ w, Solid p w → Solid q (f w)) (emptyKept : ∀ w, f w = [] ↔ w = []) (l : List α) :
    words q (f l) = (words p l).map f := by
  have solidCase (w : List α) (solid : Solid p w) : words q (f w) = (words p w).map f := by
    by_cases empty : w = []
    · rw [empty, (emptyKept []).mpr rfl]
      rfl
    · rw [words_solid solid empty, words_solid (solidKept w solid) (mt (emptyKept w).mp empty)]
      rfl
  induction l using runs_induction p with
  | last w solid => exact solidCase w solid
  | run w sep t solid separates ih =>
    rw [pieces w sep t separates, words_append_cons _ _ (sepKept sep separates), ih, solidCase w solid,
      words_append_cons w t separates, List.map_append]

end

/-! ## Texts -/

/-- The characters with the white space property. -/
def isWhitespace (c : Char) : Bool :=
  let code := c.toNat
  (9 ≤ code && code ≤ 13) || code == 0x20 || code == 0x85 || code == 0xA0 || code == 0x1680 ||
    (0x2000 ≤ code && code ≤ 0x200A) || code == 0x2028 || code == 0x2029 || code == 0x202F || code == 0x205F ||
    code == 0x3000

def splitWhitespace (text : List Char) : List (List Char) := words isWhitespace text

def trim (text : List Char) : List Char :=
  ((text.dropWhile isWhitespace).reverse.dropWhile isWhitespace).reverse

/-- The end of a line is a line feed, with a carriage return before it or not. -/
def chompLine (line : List Char) : List Char :=
  match ['\n'].isSuffixOf? line with
  | none => line
  | some line => (['\r'].isSuffixOf? line).getD line

def lines (text : List Char) : List (List Char) := (cutAfter '\n' text).map chompLine

theorem chompLine_terminated (line : List Char) :
    chompLine (line ++ ['\n']) = (['\r'].isSuffixOf? line).getD line := by
  simp [chompLine, List.isSuffixOf?, List.isPrefixOf?]

theorem chompLine_cases (line : List Char) :
    chompLine (line ++ ['\n']) = line ∨ line = chompLine (line ++ ['\n']) ++ ['\r'] := by
  rw [chompLine_terminated]
  cases reversed : line.reverse with
  | nil => simp [List.isSuffixOf?, reversed, List.isPrefixOf?]
  | cons c rest =>
    by_cases same : c = '\r'
    · right
      subst same
      rw [← List.reverse_reverse line, reversed]
      simp [List.isSuffixOf?, List.isPrefixOf?]
    · left
      have apart : ('\r' == c) = false := beq_eq_false_iff_ne.mpr (Ne.symm same)
      simp [List.isSuffixOf?, reversed, List.isPrefixOf?, apart]

theorem lines_line {line rest : List Char} (absent : '\n' ∉ line) :
    lines (line ++ '\n' :: rest) = chompLine (line ++ ['\n']) :: lines rest := by
  rw [lines, cutAfter_line absent]
  rfl

/-- Words do not notice how a line ends. -/
theorem splitWhitespace_chompLine (line : List Char) :
    splitWhitespace (chompLine (line ++ ['\n'])) = splitWhitespace line := by
  rcases chompLine_cases line with same | same
  · rw [same]
  · have whole : words isWhitespace (chompLine (line ++ ['\n']) ++ ['\r']) =
        words isWhitespace (chompLine (line ++ ['\n'])) ++ words isWhitespace [] := words_append_cons _ [] rfl
    rw [← same, words_nil, List.append_nil] at whole
    exact whole.symm

end MinimalVm.Text
