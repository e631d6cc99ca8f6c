import MinimalVm.Json.Grammar

/-! Decoding JSON values into records and tagged unions.

These are the rules a derived deserializer follows: a record is an object with
unknown fields ignored, or an array of its fields in order; a tagged union is
an object of one entry, named by the variant. A decoder is assembled from the
decoders of its parts, and so are the facts about what it accepts.
-/

set_option autoImplicit false

namespace MinimalVm.Json

inductive DecodeError where
  | invalidType (expected : String)
  | invalidValue (expected : String)
  | invalidLength (length : Nat) (expected : String)
  | unknownVariant (name : String)
  | missingField (name : String)
  | duplicateField (name : String)
  | custom (message : String)
  | expectedValue
  | trailingCharacters
  deriving DecidableEq, Repr

def DecodeError.detail : DecodeError → String
  | .invalidType expected => "invalid type, expected " ++ expected
  | .invalidValue expected => "invalid value, expected " ++ expected
  | .invalidLength length expected => "invalid length " ++ toString length ++ ", expected " ++ expected
  | .unknownVariant name => "unknown variant " ++ name
  | .missingField name => "missing field " ++ name
  | .duplicateField name => "duplicate field " ++ name
  | .custom message => message
  | .expectedValue => "expected value"
  | .trailingCharacters => "trailing characters"

abbrev Decoder (A : Type) := Json → Except DecodeError A

def Rejects {A : Type} (decode : Decoder A) (v : Json) : Prop := ∃ error, decode v = .error error

variable {A B : Type}

/-! ## Scalars and sequences -/

def decodeString : Decoder String
  | .str s => .ok s
  | _ => .error (.invalidType "a string")

def decodeBool : Decoder Bool
  | .bool b => .ok b
  | _ => .error (.invalidType "a boolean")

/-- An integer between two bounds. A number with a fraction is none. -/
def decodeInt (low high : Int) (expected : String) : Decoder Int
  | .int n => if low ≤ n ∧ n ≤ high then .ok n else .error (.invalidValue expected)
  | _ => .error (.invalidType expected)

def decodeU8 (v : Json) : Except DecodeError UInt8 :=
  (decodeInt 0 255 "u8" v).map fun n => UInt8.ofNat n.toNat

def decodeU32 (v : Json) : Except DecodeError UInt32 :=
  (decodeInt 0 4294967295 "u32" v).map fun n => UInt32.ofNat n.toNat

def decodeU64 (v : Json) : Except DecodeError UInt64 :=
  (decodeInt 0 18446744073709551615 "u64" v).map fun n => UInt64.ofNat n.toNat

def decodeI32 (v : Json) : Except DecodeError Int32 :=
  (decodeInt (-2147483648) 2147483647 "i32" v).map Int32.ofInt

def decodeUnit : Decoder Unit
  | .null => .ok ()
  | _ => .error (.invalidType "unit")

def decodeOption (decode : Decoder A) : Decoder (Option A)
  | .null => .ok none
  | v => (decode v).map some

def decodeVec (decode : Decoder A) : Decoder (List A)
  | .arr elements => elements.mapM decode
  | _ => .error (.invalidType "a sequence")

theorem decodeInt_ok {low high n : Int} (expected : String) (least : low ≤ n) (most : n ≤ high) :
    decodeInt low high expected (.int n) = .ok n := if_pos ⟨least, most⟩

@[simp] theorem decodeU8_toNat (b : UInt8) : decodeU8 (.int b.toNat) = .ok b := by
  have bound := b.toNat_lt
  rw [decodeU8, decodeInt_ok _ (by omega) (by omega)]
  simp [Except.map]

@[simp] theorem decodeU32_toNat (n : UInt32) : decodeU32 (.int n.toNat) = .ok n := by
  have bound := n.toNat_lt
  rw [decodeU32, decodeInt_ok _ (by omega) (by omega)]
  simp [Except.map]

@[simp] theorem decodeU64_toNat (n : UInt64) : decodeU64 (.int n.toNat) = .ok n := by
  have bound := n.toNat_lt
  rw [decodeU64, decodeInt_ok _ (by omega) (by omega)]
  simp [Except.map]

@[simp] theorem decodeI32_toInt (n : Int32) : decodeI32 (.int n.toInt) = .ok n := by
  have least := n.le_toInt
  have most := n.toInt_lt
  rw [decodeI32, decodeInt_ok _ (by omega) (by omega)]
  simp [Except.map]

theorem decodeI32_iff {v : Json} {n : Int32} : decodeI32 v = .ok n ↔ v = .int n.toInt := by
  constructor
  · intro decoded
    cases v with
    | int m =>
      simp only [decodeI32, decodeInt] at decoded
      split at decoded
      · rename_i bounds
        cases decoded
        rw [Int32.toInt_ofInt_of_le (by omega) (by omega)]
      · cases decoded
    | null | bool | float | str | arr | obj => cases decoded
  · rintro rfl
    exact decodeI32_toInt n

theorem decodeU8_rejects {v : Json} (other : ∀ n : Nat, n ≤ 255 → v ≠ .int n) : Rejects decodeU8 v := by
  cases v with
  | int n =>
    rw [Rejects, decodeU8, decodeInt, if_neg]
    · exact ⟨_, rfl⟩
    · rintro ⟨least, most⟩
      exact other n.toNat (by omega) (by rw [Int.toNat_of_nonneg least])
  | null | bool | float | str | arr | obj => exact ⟨_, rfl⟩

theorem mapM_map_ok {decode : Decoder A} {encode : A → Json} (inverse : ∀ a, decode (encode a) = .ok a)
    (elements : List A) : (elements.map encode).mapM decode = .ok elements := by
  induction elements with
  | nil => rfl
  | cons a elements ih => simp [List.mapM_cons, inverse a, ih, bind, Except.bind, pure, Except.pure]

theorem mapM_rejects {decode : Decoder A} {elements : List Json} {v : Json} (member : v ∈ elements)
    (rejected : Rejects decode v) : ∃ error, elements.mapM decode = .error error := by
  induction elements with
  | nil => cases member
  | cons w elements ih =>
    rw [List.mapM_cons]
    cases first : decode w with
    | error error => exact ⟨error, rfl⟩
    | ok a =>
      rcases List.mem_cons.mp member with rfl | later
      · obtain ⟨error, failed⟩ := rejected
        cases first.symm.trans failed
      · obtain ⟨error, failed⟩ := ih later
        exact ⟨error, by rw [failed]; rfl⟩

/-! ## Records -/

def field (name : String) (seen : Option A) (decode : Decoder A) (v : Json) : Except DecodeError (Option A) :=
  if seen.isSome then .error (.duplicateField name) else (decode v).map some

def nextElement (decode : Decoder A) : List Json → Except DecodeError (Option A × List Json)
  | [] => .ok (none, [])
  | v :: rest => (decode v).map (some ·, rest)

def required (missing : DecodeError) : Option A → Except DecodeError A
  | some a => .ok a
  | none => .error missing

def endSeq (rest : List Json) (a : A) : Except DecodeError A :=
  if rest.isEmpty then .ok a else .error .trailingCharacters

def visitSingle (name : String) (decode : Decoder A) : Option A → List (String × Json) →
    Except DecodeError (Option A)
  | seen, [] => .ok seen
  | seen, (key, v) :: rest => do
    if key = name then visitSingle name decode (← field name seen decode v) rest
    else visitSingle name decode seen rest

def decodeSingle (expected name : String) (decode : Decoder A) : Decoder A
  | .obj entries => do required (.missingField name) (← visitSingle name decode none entries)
  | .arr elements => do
    let (first, rest) ← nextElement decode elements
    endSeq rest (← required (.invalidLength 0 (expected ++ " with 1 element")) first)
  | _ => .error (.invalidType expected)

theorem decodeSingle_field {expected name : String} {decode : Decoder A} {v : Json} {a : A}
    (decoded : decode v = .ok a) : decodeSingle expected name decode (.obj [(name, v)]) = .ok a := by
  simp [decodeSingle, visitSingle, field, decoded, required, Except.map, bind, Except.bind]

/-! ## Tagged unions -/

def decodeEnum (variants : List (String × Decoder A)) : Decoder A
  | .obj ((name, v) :: rest) =>
    match variants.lookup name with
    | none => .error (.unknownVariant name)
    | some decode => do
      let a ← decode v
      if rest.isEmpty then .ok a else .error .expectedValue
  | .str name =>
    if (variants.lookup name).isSome then .error (.invalidType "newtype variant")
    else .error (.unknownVariant name)
  | _ => .error .expectedValue

def newtype (decode : Decoder A) (wrap : A → B) : Decoder B := fun v => (decode v).map wrap

theorem decodeEnum_entry {variants : List (String × Decoder A)} {name : String} {decode : Decoder A}
    (found : variants.lookup name = some decode) (v : Json) :
    decodeEnum variants (.obj [(name, v)]) = decode v := by
  simp only [decodeEnum, found]
  cases decode v <;> rfl

theorem decodeEnum_newtype {variants : List (String × Decoder B)} {name : String} {decode : Decoder A}
    {wrap : A → B} {v : Json} {a : A} (found : variants.lookup name = some (newtype decode wrap))
    (decoded : decode v = .ok a) : decodeEnum variants (.obj [(name, v)]) = .ok (wrap a) := by
  rw [decodeEnum_entry found, newtype, decoded]
  rfl

theorem decodeEnum_rejects {variants : List (String × Decoder B)} {name : String} {decode : Decoder A}
    {wrap : A → B} {v : Json} (found : variants.lookup name = some (newtype decode wrap))
    (rejected : Rejects decode v) : Rejects (decodeEnum variants) (.obj [(name, v)]) := by
  obtain ⟨error, failed⟩ := rejected
  exact ⟨error, by rw [decodeEnum_entry found, newtype, failed]; rfl⟩

/-! ## Objects with their entries in any order -/

def valuesOf (name : String) (entries : List (String × Json)) : List Json :=
  (entries.filter (·.1 = name)).map Prod.snd

@[simp] theorem valuesOf_cons_same (name : String) (v : Json) (rest : List (String × Json)) :
    valuesOf name ((name, v) :: rest) = v :: valuesOf name rest := by
  simp [valuesOf]

@[simp] theorem valuesOf_cons_other {name key : String} (other : key ≠ name) (v : Json) (rest : List (String × Json)) :
    valuesOf name ((key, v) :: rest) = valuesOf name rest := by
  simp [valuesOf, other]

@[simp] theorem valuesOf_append (name : String) (entries rest : List (String × Json)) :
    valuesOf name (entries ++ rest) = valuesOf name entries ++ valuesOf name rest := by
  simp [valuesOf]

theorem valuesOf_absent {name : String} {entries : List (String × Json)}
    (absent : ∀ entry ∈ entries, entry.1 ≠ name) : valuesOf name entries = [] := by
  rw [valuesOf, List.map_eq_nil_iff, List.filter_eq_nil_iff]
  intro entry member
  simpa using absent entry member

theorem valuesOf_perm {name : String} {entries others : List (String × Json)} (value : Option Json)
    (same : entries.Perm others) (once : valuesOf name others = value.toList) :
    valuesOf name entries = value.toList := by
  have values : (valuesOf name entries).Perm (valuesOf name others) := (same.filter _).map _
  rw [once] at values
  cases value with
  | none => exact List.perm_nil.mp values
  | some v => exact List.perm_singleton.mp values

/-- A field is met at most once, now or later, and its value can be decoded. -/
inductive FieldMet (decode : Decoder A) : Option A → List Json → Option A → Prop
  | done {seen : Option A} : FieldMet decode seen [] seen
  | later {v : Json} {a : A} : decode v = .ok a → FieldMet decode none [v] (some a)

namespace FieldMet

variable {decode : Decoder A} {seen out : Option A} {name : String} {v : Json} {rest : List (String × Json)}

theorem here (met : FieldMet decode seen (valuesOf name ((name, v) :: rest)) out) :
    field name seen decode v = .ok out ∧ FieldMet decode out (valuesOf name rest) out := by
  rw [valuesOf_cons_same] at met
  generalize valuesOf name rest = values at met ⊢
  cases met with
  | later decoded => exact ⟨by simp [field, decoded, Except.map], .done⟩

theorem skip {key : String} (other : key ≠ name) (met : FieldMet decode seen (valuesOf name ((key, v) :: rest)) out) :
    FieldMet decode seen (valuesOf name rest) out := by
  rwa [valuesOf_cons_other other] at met

theorem of_option {B : Type} {decode : Decoder A} {encode : B → Json} {read : B → A}
    (decoded : ∀ b, decode (encode b) = .ok (read b)) {values : List Json} {value : Option B}
    (once : values = (value.map encode).toList) : FieldMet decode none values (value.map read) := by
  subst once
  cases value with
  | none => exact .done
  | some b => exact .later (decoded b)

end FieldMet

theorem visitSingle_met {name : String} {decode : Decoder A} {seen out : Option A} {entries : List (String × Json)} :
    visitSingle name decode seen entries = .ok out ↔ FieldMet decode seen (valuesOf name entries) out := by
  -- The induction is on the entries, with what has been seen of the field.
  induction entries generalizing seen with
  | nil =>
    constructor
    · intro ended
      cases ended
      exact .done
    · intro met
      cases met
      rfl
  | cons entry rest ih =>
    obtain ⟨key, v⟩ := entry
    by_cases same : key = name
    · subst same
      rw [visitSingle, if_pos rfl]
      constructor
      · intro visited
        cases seen with
        | some a => cases visited
        | none =>
          rw [valuesOf_cons_same]
          cases decoded : decode v with
          | error error =>
            simp [field, decoded, Except.map, bind, Except.bind] at visited
          | ok a =>
            simp only [field, decoded, Except.map, bind, Except.bind, Option.isSome_none, Bool.false_eq_true,
              if_false] at visited
            have met := ih.mp visited
            generalize valuesOf key rest = values at met ⊢
            cases met with
            | done => exact .later decoded
      · intro met
        obtain ⟨here, after⟩ := met.here
        rw [here]
        exact ih.mpr after
    · rw [visitSingle, if_neg same, valuesOf_cons_other same]
      exact ih

/-- A record of one field is an object that has the field exactly once. -/
theorem decodeSingle_iff {expected name : String} {decode : Decoder A} {entries : List (String × Json)} {a : A} :
    decodeSingle expected name decode (.obj entries) = .ok a ↔
      ∃ v, valuesOf name entries = [v] ∧ decode v = .ok a := by
  have visited (out : Option A) : visitSingle name decode none entries = .ok out ↔
      FieldMet decode none (valuesOf name entries) out := visitSingle_met
  constructor
  · intro decoded
    cases found : visitSingle name decode none entries with
    | error error => simp [decodeSingle, found, bind, Except.bind] at decoded
    | ok out =>
      simp only [decodeSingle, found, bind, Except.bind] at decoded
      cases out with
      | none => cases decoded
      | some b =>
        cases decoded
        have met := (visited _).mp found
        generalize valuesOf name entries = values at met ⊢
        cases met with
        | later read => exact ⟨_, rfl, read⟩
  · rintro ⟨v, once, decoded⟩
    have met : FieldMet decode none (valuesOf name entries) (some a) := once ▸ .later decoded
    simp only [decodeSingle, (visited _).mpr met, bind, Except.bind, required]

/-- Beside the entry of its variant a tagged union has no other. -/
theorem decodeEnum_alone {variants : List (String × Decoder A)} {entries : List (String × Json)} {a : A}
    (decoded : decodeEnum variants (.obj entries) = .ok a) :
    ∃ name v decode, entries = [(name, v)] ∧ variants.lookup name = some decode ∧ decode v = .ok a := by
  cases entries with
  | nil => cases decoded
  | cons entry rest =>
    obtain ⟨name, v⟩ := entry
    simp only [decodeEnum] at decoded
    cases found : variants.lookup name with
    | none => rw [found] at decoded; cases decoded
    | some decode =>
      rw [found] at decoded
      dsimp only [bind, Except.bind] at decoded
      cases read : decode v with
      | error error => rw [read] at decoded; cases decoded
      | ok b =>
        rw [read] at decoded
        dsimp only at decoded
        split at decoded
        · rename_i ended
          cases decoded
          exact ⟨name, v, decode, by rw [List.isEmpty_iff.mp ended], found, read⟩
        · cases decoded

end MinimalVm.Json
