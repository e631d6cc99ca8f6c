import MinimalVm.Json.Decode

/-! Records put together from their fields.

A visitor knows the names of some fields and carries what it has met of them.
Two that know different names read an object side by side as each of them reads
it alone, so that a record comes back if every field of it does.
-/

set_option autoImplicit false

namespace MinimalVm.Json

variable {A S T : Type}

/-! ## Scalars of other kinds -/

def isFinite (bits : UInt64) : Bool := (bits >>> 52) &&& 0x7FF != 0x7FF

/-- There is no text for an infinity. -/
def encodeF64 (bits : UInt64) : Json := if isFinite bits then .float bits else .null

def encodeOption (encode : A → Json) : Option A → Json
  | none => .null
  | some a => encode a

def decodeF64 : Decoder UInt64
  | .float bits => .ok bits
  | .int n => .ok (Float.ofInt n).toBits
  | _ => .error (.invalidType "f64")

theorem decodeF64_encodeF64 {bits : UInt64} (finite : isFinite bits = true) : decodeF64 (encodeF64 bits) = .ok bits := by
  rw [encodeF64, if_pos finite]
  rfl

/-- The name of a variant, or an object that has it as its only entry. -/
def decodeUnitEnum (variants : List (String × A)) : Decoder A
  | .str name =>
    match variants.lookup name with
    | none => .error (.unknownVariant name)
    | some a => .ok a
  | .obj ((name, v) :: rest) =>
    match variants.lookup name with
    | none => .error (.unknownVariant name)
    | some a => do
      decodeUnit v
      if rest.isEmpty then .ok a else .error .expectedValue
  | _ => .error .expectedValue

theorem decodeUnitEnum_name {variants : List (String × A)} {name : String} {a : A}
    (found : variants.lookup name = some a) : decodeUnitEnum variants (.str name) = .ok a := by
  simp only [decodeUnitEnum, found]

/-! ## Visitors -/

structure Visitor (S : Type) where
  names : List String
  visit : S → String → Json → Except DecodeError S

namespace Visitor

def single (name : String) (decode : Decoder A) : Visitor (Option A) where
  names := [name]
  visit seen _ v := field name seen decode v

def both (one : Visitor S) (two : Visitor T) : Visitor (S × T) where
  names := one.names ++ two.names
  visit seen key v :=
    if key ∈ one.names then (one.visit seen.1 key v).map (·, seen.2)
    else (two.visit seen.2 key v).map (seen.1, ·)

/-- Entries that are not known are passed over. -/
def visitMap (this : Visitor S) (seen : S) : List (String × Json) → Except DecodeError S
  | [] => .ok seen
  | (key, v) :: rest => do
    if key ∈ this.names then visitMap this (← this.visit seen key v) rest else visitMap this seen rest

theorem visitMap_single (name : String) (decode : Decoder A) (seen : Option A) (entries : List (String × Json)) :
    (single name decode).visitMap seen entries = visitSingle name decode seen entries := by
  induction entries generalizing seen with
  | nil => rfl
  | cons entry rest ih =>
    obtain ⟨key, v⟩ := entry
    have known : key ∈ (single name decode).names ↔ key = name := List.mem_singleton
    rw [visitMap, visitSingle]
    by_cases same : key = name
    · rw [if_pos (known.mpr same), if_pos same]
      exact congrArg _ (funext fun met => ih met)
    · rw [if_neg (mt known.mp same), if_neg same]
      exact ih seen

theorem visitMap_both {one : Visitor S} {two : Visitor T} (apart : ∀ name ∈ one.names, name ∉ two.names)
    {entries : List (String × Json)} {s s' : S} {t t' : T} (first : one.visitMap s entries = .ok s')
    (second : two.visitMap t entries = .ok t') : (one.both two).visitMap (s, t) entries = .ok (s', t') := by
  induction entries generalizing s t with
  | nil =>
    cases first
    cases second
    rfl
  | cons entry rest ih =>
    obtain ⟨key, v⟩ := entry
    have known : key ∈ (one.both two).names ↔ key ∈ one.names ∨ key ∈ two.names := List.mem_append
    rw [visitMap] at first second ⊢
    -- At most one of the two knows the key, and the other passes over it.
    by_cases inOne : key ∈ one.names
    · rw [if_pos inOne] at first
      rw [if_neg (apart key inOne)] at second
      rw [if_pos (known.mpr (.inl inOne))]
      cases visited : one.visit s key v with
      | error error =>
        rw [visited] at first
        cases first
      | ok seen =>
        rw [visited] at first
        have here : (one.both two).visit (s, t) key v = .ok (seen, t) := by
          simp only [both, inOne, if_true, visited, Except.map]
        rw [here]
        exact ih first second
    · rw [if_neg inOne] at first
      by_cases inTwo : key ∈ two.names
      · rw [if_pos inTwo] at second
        rw [if_pos (known.mpr (.inr inTwo))]
        cases visited : two.visit t key v with
        | error error =>
          rw [visited] at second
          cases second
        | ok seen =>
          rw [visited] at second
          have here : (one.both two).visit (s, t) key v = .ok (s, seen) := by
            simp only [both, inOne, if_false, visited, Except.map]
          rw [here]
          exact ih first second
      · rw [if_neg inTwo] at second
        rw [if_neg (by rw [known]; exact not_or.mpr ⟨inOne, inTwo⟩)]
        exact ih first second

end Visitor

/-! ## Objects with further entries -/

/-- Entries that are these fields in any order, among others that are not known. -/
def Extends (known : List String) (fields entries : List (String × Json)) : Prop :=
  ∃ extra, (∀ entry ∈ extra, entry.1 ∉ known) ∧ entries.Perm (fields ++ extra)

namespace Extends

variable {known : List String} {fields entries : List (String × Json)}

theorem refl (known : List String) (fields : List (String × Json)) : Extends known fields fields :=
  ⟨[], nofun, List.Perm.of_eq (List.append_nil fields).symm⟩

theorem valuesOf_eq (this : Extends known fields entries) {name : String} (member : name ∈ known)
    (value : Option Json) (once : valuesOf name fields = value.toList) : valuesOf name entries = value.toList := by
  obtain ⟨extra, unknown, order⟩ := this
  have none : valuesOf name extra = [] := by
    apply valuesOf_absent
    rintro entry inside rfl
    exact unknown entry inside member
  refine valuesOf_perm value order ?_
  rw [valuesOf_append, none, List.append_nil, once]

theorem visit_field (this : Extends known fields entries) {name : String} (member : name ∈ known) {decode : Decoder A}
    (value : Option Json) (once : valuesOf name fields = value.toList) {out : Option A}
    (met : FieldMet decode none value.toList out) : (Visitor.single name decode).visitMap none entries = .ok out := by
  rw [Visitor.visitMap_single, visitSingle_met, this.valuesOf_eq member value once]
  exact met

end Extends

def optional (name : String) (value : Option Json) : List (String × Json) := (value.map (name, ·)).toList

@[simp] theorem valuesOf_nil (name : String) : valuesOf name [] = [] := rfl

@[simp] theorem valuesOf_optional_same (name : String) (value : Option Json) :
    valuesOf name (optional name value) = value.toList := by
  cases value with
  | none => rfl
  | some v => exact valuesOf_cons_same name v []

@[simp] theorem valuesOf_optional_other {name other : String} (apart : other ≠ name) (value : Option Json) :
    valuesOf name (optional other value) = [] := by
  cases value with
  | none => rfl
  | some v => exact valuesOf_cons_other apart v []

/-! ## Values that may be written in several forms -/

section
variable {form : A → Json → A → Prop} {decode : Decoder A}

/-- A value that is written in some form, or left out and read as the default. -/
inductive Part (form : A → Json → A → Prop) (default : A) (a : A) : Option Json → A → Prop
  | kept {v : Json} {read : A} : form a v read → Part form default a (some v) read
  | removed : Part form default a none default

inductive Each (form : A → Json → A → Prop) : List A → List Json → List A → Prop
  | nil : Each form [] [] []
  | cons {a read : A} {as reads : List A} {v : Json} {elements : List Json} : form a v read →
      Each form as elements reads → Each form (a :: as) (v :: elements) (read :: reads)

theorem Part.met {default a read : A} {value : Option Json} (part : Part form default a value read)
    (decodes : ∀ v read, form a v read → decode v = .ok read) :
    ∃ out, FieldMet decode none value.toList out ∧ out.getD default = read := by
  cases part with
  | kept written => exact ⟨_, .later (decodes _ _ written), rfl⟩
  | removed => exact ⟨none, .done, rfl⟩

theorem Each.mapM_ok {as reads : List A} {elements : List Json} (each : Each form as elements reads)
    (decodes : ∀ a v read, form a v read → decode v = .ok read) : elements.mapM decode = .ok reads := by
  induction each with
  | nil => rfl
  | cons first _ ih => simp [List.mapM_cons, decodes _ _ _ first, ih, bind, Except.bind, pure, Except.pure]

theorem Each.of_encode {encode : A → Json} (encodes : ∀ a, form a (encode a) a) (as : List A) :
    Each form as (as.map encode) as := by
  induction as with
  | nil => exact .nil
  | cons a as ih => exact .cons (encodes a) ih

end

end MinimalVm.Json
