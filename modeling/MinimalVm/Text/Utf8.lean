/-! Texts as the bytes of their UTF-8 encoding.

ASCII bytes are the texts of one byte a character: a byte string of them is
read as a text and encoded again without loss.
-/

set_option autoImplicit false

namespace MinimalVm.Text

def newline : UInt8 := 10

def utf8 (s : String) : List UInt8 := s.toList.flatMap String.utf8EncodeChar

def isAscii (bytes : List UInt8) : Bool := bytes.all (· < 128)

/-- The text of ASCII bytes. -/
def ofAscii (bytes : List UInt8) : String := String.ofList (bytes.map fun b => Char.ofNat b.toNat)

theorem utf8EncodeChar_ascii {b : UInt8} (small : b < 128) :
    String.utf8EncodeChar (Char.ofNat b.toNat) = [b] := by
  have bound : b.toNat < 128 := UInt8.lt_iff_toNat_lt.mp small
  have valid : b.toNat.isValidChar := Or.inl (by omega)
  have value : (Char.ofNat b.toNat).val.toNat = b.toNat := by
    rw [Char.ofNat, dif_pos valid]
    rfl
  rw [String.utf8EncodeChar_eq_singleton]
  · congr 1
    apply UInt8.toNat_inj.mp
    rw [UInt32.toNat_toUInt8, value]
    omega
  · have low : (Char.ofNat b.toNat).val ≤ 127 := by
      rw [UInt32.le_iff_toNat_le, value]
      show b.toNat ≤ 127
      omega
    simp [Char.utf8Size, low]

theorem utf8_ofAscii {bytes : List UInt8} (ascii : isAscii bytes = true) : utf8 (ofAscii bytes) = bytes := by
  simp only [utf8, ofAscii, String.toList_ofList]
  induction bytes with
  | nil => rfl
  | cons b bytes ih =>
    simp only [isAscii, List.all_cons, Bool.and_eq_true, decide_eq_true_eq] at ascii
    rw [List.map_cons, List.flatMap_cons, utf8EncodeChar_ascii ascii.1, ih ascii.2]
    rfl

/-! ## Lists of characters -/

def encodeText (text : List Char) : List UInt8 := text.flatMap String.utf8EncodeChar

/-- The text of some bytes, if they are UTF-8. -/
def fromUtf8 (bytes : List UInt8) : Option (List Char) := bytes.toByteArray.utf8Decode?.map Array.toList

theorem encodeText_cons (c : Char) (text : List Char) :
    encodeText (c :: text) = String.utf8EncodeChar c ++ encodeText text := List.flatMap_cons

@[simp] theorem encodeText_append (first rest : List Char) :
    encodeText (first ++ rest) = encodeText first ++ encodeText rest := List.flatMap_append

theorem encodeText_eq_nil {text : List Char} : encodeText text = [] ↔ text = [] := by
  cases text with
  | nil => exact iff_of_true rfl rfl
  | cons c text =>
    rw [encodeText_cons, List.append_eq_nil_iff]
    exact iff_of_false (fun none => String.utf8EncodeChar_ne_nil none.1) nofun

theorem fromUtf8_encodeText (text : List Char) : fromUtf8 (encodeText text) = some text := by
  have decoded : text.utf8Encode.utf8Decode? = some text.toArray := List.utf8Decode?_utf8Encode
  change text.utf8Encode.utf8Decode?.map Array.toList = some text
  rw [decoded]
  rfl

theorem encodeText_ascii {bytes : List UInt8} (ascii : isAscii bytes = true) :
    encodeText (bytes.map fun b => Char.ofNat b.toNat) = bytes := by
  have same := utf8_ofAscii ascii
  rw [utf8, ofAscii, String.toList_ofList] at same
  exact same

theorem encodeText_fromUtf8 {bytes : List UInt8} {text : List Char} (decoded : fromUtf8 bytes = some text) :
    encodeText text = bytes := by
  obtain ⟨chars, decodes, rfl⟩ := Option.map_eq_some_iff.mp decoded
  have valid : bytes.toByteArray.utf8Decode?.isSome = true := by rw [decodes]; rfl
  have encoded := ByteArray.utf8Encode_get_utf8Decode? (b := bytes.toByteArray) (h := valid)
  simp only [decodes, Option.get_some] at encoded
  have data := congrArg (fun b : ByteArray => b.data.toList) encoded
  simpa [List.utf8Encode, encodeText] using data

theorem utf8EncodeChar_member {c : Char} {b : UInt8} (member : b ∈ String.utf8EncodeChar c) (small : b.toNat < 128) :
    c.toNat = b.toNat := by
  -- All bytes of a character of more than one byte have their highest bit set.
  have large {k : Nat} (same : b = UInt8.ofNat k) (least : 128 ≤ k) (most : k < 256) : False := by
    rw [same, UInt8.toNat_ofNat_of_lt' most] at small
    omega
  unfold String.utf8EncodeChar at member
  dsimp only at member
  split at member
  · rename_i ascii
    have value : c.val.toNat < 256 := by omega
    rw [List.mem_singleton.mp member, UInt8.toNat_ofNat_of_lt' value]
    rfl
  · exfalso
    split at member
    · simp only [List.mem_cons, List.not_mem_nil, or_false] at member
      rcases member with first | second
      · exact large first (by omega) (by omega)
      · exact large second (by omega) (by omega)
    · split at member
      · simp only [List.mem_cons, List.not_mem_nil, or_false] at member
        rcases member with first | second | third
        · exact large first (by omega) (by omega)
        · exact large second (by omega) (by omega)
        · exact large third (by omega) (by omega)
      · simp only [List.mem_cons, List.not_mem_nil, or_false] at member
        rcases member with first | second | third | fourth
        · exact large first (by omega) (by omega)
        · exact large second (by omega) (by omega)
        · exact large third (by omega) (by omega)
        · exact large fourth (by omega) (by omega)

theorem newline_encodeText {text : List Char} : newline ∈ encodeText text ↔ '\n' ∈ text := by
  constructor
  · intro member
    obtain ⟨c, inside, part⟩ := List.mem_flatMap.mp member
    have code : c.toNat = newline.toNat := utf8EncodeChar_member part (by decide)
    have same : c = '\n' := Char.toNat_inj.mp code
    exact same ▸ inside
  · intro inside
    exact List.mem_flatMap.mpr ⟨'\n', inside, by decide⟩

end MinimalVm.Text
