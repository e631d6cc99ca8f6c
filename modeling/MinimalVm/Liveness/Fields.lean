import MinimalVm.Liveness.Unescaping

/-! The lines of the kernel, taken apart again.

The kernel separates fields by single spaces and escapes the spaces, tabs and
line feeds in them; the reader separates them at white space of every kind. So a
field comes back if the kernel has escaped all its white space, and the device,
which is not looked at, has to leave the fields after it in their places.
-/

set_option autoImplicit false

namespace MinimalVm.Liveness

open MinimalVm.Text

/-! ## The writer -/

/-- The characters that the kernel escapes. -/
def isEscaped (c : Char) : Bool := c == ' ' || c == '\t' || c == '\n' || c == '\\' || c == '#'

def octalDigit (n : Nat) : Char := Char.ofNat ('0'.toNat + n % 8)

def escapeChar (c : Char) : Text :=
  if isEscaped c then ['\\', octalDigit (c.toNat / 64), octalDigit (c.toNat / 8), octalDigit c.toNat] else [c]

def escapeField (field : Text) : Text := field.flatMap escapeChar

/-- A mount as the kernel has it, with no field empty. -/
structure Entry where
  device : Text
  mountPoint : Text
  fstype : Text
  options : Text
  device_ne : device ≠ []
  mountPoint_ne : mountPoint ≠ []
  fstype_ne : fstype ≠ []
  options_ne : options ≠ []

namespace Entry

def line (this : Entry) : Text :=
  escapeField this.device ++ ' ' :: escapeField this.mountPoint ++ ' ' :: escapeField this.fstype ++
    ' ' :: escapeField this.options

end Entry

def mountsText (entries : List Entry) : Text := entries.flatMap fun entry => entry.line ++ ['\n']

/-- What the reader makes of a line: its mount point, type and options. -/
def readLine (line : Text) : Option (Text × Text × Text) :=
  (mountFields line).map fun mount => (unescapeMountPoint mount.mountPoint, mount.fstype, mount.options)

/-! ## Escaped fields -/

/-- White space that the kernel does not escape. -/
def isOther (c : Char) : Bool := isWhitespace c && !isEscaped c

@[simp] theorem escapeField_nil : escapeField [] = [] := rfl

@[simp] theorem escapeField_cons (c : Char) (rest : Text) :
    escapeField (c :: rest) = escapeChar c ++ escapeField rest := List.flatMap_cons

@[simp] theorem escapeField_append (first rest : Text) :
    escapeField (first ++ rest) = escapeField first ++ escapeField rest := List.flatMap_append

theorem isEscaped_cases {c : Char} (escaped : isEscaped c = true) :
    c = ' ' ∨ c = '\t' ∨ c = '\n' ∨ c = '\\' ∨ c = '#' := by
  simpa [isEscaped, or_assoc] using escaped

theorem escapeChar_ne_nil (c : Char) : escapeChar c ≠ [] := by
  unfold escapeChar
  split
  · exact List.cons_ne_nil _ _
  · exact List.cons_ne_nil _ _

theorem escapeField_eq_nil (field : Text) : escapeField field = [] ↔ field = [] := by
  cases field with
  | nil => simp
  | cons c rest => simp [escapeChar_ne_nil c]

theorem unescape_escapeChar (c : Char) (rest : Text) :
    unescapeMountPoint (escapeChar c ++ rest) = c :: unescapeMountPoint rest := by
  unfold escapeChar
  split
  · rename_i escaped
    rcases isEscaped_cases escaped with rfl | rfl | rfl | rfl | rfl
    all_goals exact unescape_octal rfl rfl rfl
  · rename_i plain
    refine unescape_plain ?_
    rintro rfl
    exact plain rfl

theorem unescape_escapeField_append (field rest : Text) :
    unescapeMountPoint (escapeField field ++ rest) = field ++ unescapeMountPoint rest := by
  induction field with
  | nil => rfl
  | cons c field ih => rw [escapeField_cons, List.append_assoc, unescape_escapeChar, ih, List.cons_append]

theorem unescape_escapeField (field : Text) : unescapeMountPoint (escapeField field) = field := by
  have whole := unescape_escapeField_append field []
  rw [List.append_nil, unescapeMountPoint, List.append_nil] at whole
  exact whole

theorem escapeField_inj {first second : Text} : escapeField first = escapeField second ↔ first = second := by
  constructor
  · intro same
    rw [← unescape_escapeField first, same, unescape_escapeField]
  · intro same
    rw [same]

theorem escapeChar_solid {c : Char} (solid : isOther c = false) : Solid isWhitespace (escapeChar c) := by
  unfold escapeChar
  split
  · rename_i escaped
    rcases isEscaped_cases escaped with rfl | rfl | rfl | rfl | rfl
    all_goals exact of_decide_eq_true rfl
  · rename_i plain
    simpa [isOther, plain, Solid] using solid

theorem escapeField_solid {field : Text} (solid : Solid isOther field) : Solid isWhitespace (escapeField field) := by
  intro c member
  obtain ⟨d, inside, part⟩ := List.mem_flatMap.mp member
  exact escapeChar_solid (solid d inside) c part

theorem splitWhitespace_escapeField (field : Text) :
    splitWhitespace (escapeField field) = (words isOther field).map escapeField := by
  refine words_map id ?_ ?_ (fun _ => escapeField_solid) escapeField_eq_nil field
  · intro sep other
    exact (Bool.and_eq_true _ _ ▸ other).1
  · intro w sep rest other
    have plain : escapeChar sep = [sep] := by
      have kept := (Bool.and_eq_true _ _ ▸ other).2
      rw [escapeChar, if_neg (by simpa using kept)]
    rw [escapeField_append, escapeField_cons, plain]
    rfl

/-! ## Lines -/

namespace Entry

/-- The fields are without further white space, and what it leaves of the device
puts the others where the reader looks for them. -/
def Plain (this : Entry) : Prop :=
  Solid isOther this.mountPoint ∧ Solid isOther this.fstype ∧ Solid isOther this.options ∧
    ((words isOther this.device ++ [this.mountPoint, this.fstype, this.options]).drop 1).take 3 =
      [this.mountPoint, this.fstype, this.options]

def words (this : Entry) : List Text :=
  Text.words isOther this.device ++ Text.words isOther this.mountPoint ++ Text.words isOther this.fstype ++
    Text.words isOther this.options

theorem splitWhitespace_line (this : Entry) : splitWhitespace this.line = this.words.map escapeField := by
  have space (first rest : Text) : splitWhitespace (first ++ ' ' :: rest) = splitWhitespace first ++ splitWhitespace rest :=
    words_append_cons first rest rfl
  unfold line words
  rw [space, space, space]
  simp only [splitWhitespace_escapeField, List.map_append]

end Entry

theorem readLine_words {line : Text} {ws : List Text} (split : splitWhitespace line = ws.map escapeField)
    (mountPoint fstype options : Text) :
    readLine line = some (mountPoint, escapeField fstype, escapeField options) ↔
      (ws.drop 1).take 3 = [mountPoint, fstype, options] := by
  unfold readLine mountFields
  rw [split]
  match ws with
  | [] | [_] | [_, _] | [_, _, _] => simp
  | _ :: _ :: _ :: _ :: _ => simp [unescape_escapeField, escapeField_inj]

theorem Entry.read_iff (this : Entry) {line : Text} (split : splitWhitespace line = splitWhitespace this.line) :
    readLine line = some (this.mountPoint, escapeField this.fstype, escapeField this.options) ↔ this.Plain := by
  rw [readLine_words (split.trans this.splitWhitespace_line)]
  have whole (mountPoint : Solid isOther this.mountPoint) (fstype : Solid isOther this.fstype)
      (options : Solid isOther this.options) :
      this.words = Text.words isOther this.device ++ [this.mountPoint, this.fstype, this.options] := by
    rw [Entry.words, words_solid mountPoint this.mountPoint_ne, words_solid fstype this.fstype_ne,
      words_solid options this.options_ne, List.append_assoc, List.append_assoc]
    rfl
  constructor
  · intro read
    -- What was read are words, which have no white space in them.
    have solid {field : Text} (member : field ∈ [this.mountPoint, this.fstype, this.options]) :
        Solid isOther field := by
      have word : field ∈ this.words := List.mem_of_mem_drop (List.mem_of_mem_take (read ▸ member))
      simp only [Entry.words, List.mem_append] at word
      obtain ((device | mountPoint) | fstype) | options := word
      · exact (words_spec device).1
      · exact (words_spec mountPoint).1
      · exact (words_spec fstype).1
      · exact (words_spec options).1
    have mountPoint := solid List.mem_cons_self
    have fstype := solid (List.mem_cons_of_mem _ List.mem_cons_self)
    have options := solid (List.mem_cons_of_mem _ (List.mem_cons_of_mem _ List.mem_cons_self))
    rw [whole mountPoint fstype options] at read
    exact ⟨mountPoint, fstype, options, read⟩
  · rintro ⟨mountPoint, fstype, options, read⟩
    rw [whole mountPoint fstype options]
    exact read

theorem newline_escapeField (field : Text) : '\n' ∉ escapeField field := by
  intro member
  obtain ⟨c, -, part⟩ := List.mem_flatMap.mp member
  unfold escapeChar at part
  split at part
  · rename_i escaped
    rcases isEscaped_cases escaped with rfl | rfl | rfl | rfl | rfl
    all_goals exact absurd part (by decide)
  · rename_i plain
    rw [← List.mem_singleton.mp part] at plain
    exact plain rfl

theorem lines_mountsText (entries : List Entry) :
    lines (mountsText entries) = entries.map fun entry => chompLine (entry.line ++ ['\n']) := by
  induction entries with
  | nil => rfl
  | cons entry entries ih =>
    have absent : '\n' ∉ entry.line := by
      simp [Entry.line, newline_escapeField]
    have first : mountsText (entry :: entries) = entry.line ++ '\n' :: mountsText entries := by
      rw [mountsText, List.flatMap_cons, List.append_assoc]
      rfl
    rw [first, lines_line absent, ih, List.map_cons]

/-- Of all mounts that are written, those come back whose fields are plain. -/
theorem mounts_read (entries : List Entry) :
    (lines (mountsText entries)).map readLine =
        entries.map (fun entry => some (entry.mountPoint, escapeField entry.fstype, escapeField entry.options)) ↔
      ∀ entry ∈ entries, entry.Plain := by
  rw [lines_mountsText, List.map_map, List.map_inj_left]
  refine forall_congr' fun entry => imp_congr_right fun _ => ?_
  exact entry.read_iff (splitWhitespace_chompLine entry.line)

def noBreak : Entry :=
  ⟨"/dev/vdb".toList, "/mnt/a\u00a0b".toList, "ext4".toList, "rw".toList, nofun, nofun, nofun, nofun⟩

theorem mounts_not_read :
    (lines (mountsText [noBreak])).map readLine ≠
      [noBreak].map fun entry => some (entry.mountPoint, escapeField entry.fstype, escapeField entry.options) := by
  decide +kernel

/-! ## What the loop has seen -/

theorem visit_seen (guest : Guest) (found : Found) (line : Text) :
    (visit guest found line).seen = found.seen ∨
      ∃ mount, mountFields line = some mount ∧
        (visit guest found line).seen = found.seen ++ [unescapeMountPoint mount.mountPoint] := by
  unfold visit
  cases mountFields line with
  | none => exact .inl rfl
  | some mount =>
    dsimp only
    split
    · exact .inl rfl
    · split
      · exact .inl rfl
      · split
        · exact .inl rfl
        · split
          · exact .inl rfl
          · refine .inr ⟨mount, rfl, ?_⟩
            split
            · rfl
            · split
              · split
                · rfl
                · rfl
              · rfl

theorem foldl_visit_seen {guest : Guest} {ls : List Text} {found : Found} {mountPoint : Text}
    (member : mountPoint ∈ (ls.foldl (visit guest) found).seen) :
    mountPoint ∈ found.seen ∨
      ∃ line ∈ ls, ∃ mount, mountFields line = some mount ∧ unescapeMountPoint mount.mountPoint = mountPoint := by
  induction ls generalizing found with
  | nil => exact .inl member
  | cons line ls ih =>
    rcases ih member with now | ⟨later, inside, mount, fields, point⟩
    · rcases visit_seen guest found line with same | ⟨mount, fields, adds⟩
      · exact .inl (same ▸ now)
      · rw [adds, List.mem_append, List.mem_singleton] at now
        rcases now with before | rfl
        · exact .inl before
        · exact .inr ⟨line, List.mem_cons_self, mount, fields, rfl⟩
    · exact .inr ⟨later, List.mem_cons_of_mem _ inside, mount, fields, point⟩

/-- Lines of the kernel, whose mount points are escaped. -/
def Escaped (ls : List Text) : Prop :=
  ∀ line ∈ ls, ∀ mount, mountFields line = some mount → ∃ mountPoint, mount.mountPoint = escapeField mountPoint

/-- The decoder undoes what the kernel escapes, so that it tells escaped mount
points apart, and a line whose mount point has been seen is not the first with
the very same field. -/
theorem unescape_undoes :
    (∀ mountPoint, unescapeMountPoint (escapeField mountPoint) = mountPoint) ∧
      (∀ one two, unescapeMountPoint (escapeField one) = unescapeMountPoint (escapeField two) →
        escapeField one = escapeField two) ∧
      ∀ guest ls, Escaped ls → ∀ first line rest mount, ls = first ++ line :: rest → mountFields line = some mount →
        unescapeMountPoint mount.mountPoint ∈ (first.foldl (visit guest) ⟨[], [], []⟩).seen →
        ∃ earlier ∈ first, ∃ other, mountFields earlier = some other ∧ other.mountPoint = mount.mountPoint := by
  refine ⟨unescape_escapeField, fun one two same => ?_, ?_⟩
  · rw [unescape_escapeField, unescape_escapeField] at same
    rw [same]
  · rintro guest ls escaped first line rest mount rfl fields seen
    rcases foldl_visit_seen seen with impossible | ⟨earlier, inside, other, fieldsOther, same⟩
    · cases impossible
    · refine ⟨earlier, inside, other, fieldsOther, ?_⟩
      obtain ⟨one, isOne⟩ := escaped line (List.mem_append_right _ List.mem_cons_self) mount fields
      obtain ⟨two, isTwo⟩ := escaped earlier (List.mem_append_left _ inside) other fieldsOther
      rw [isOne, isTwo, unescape_escapeField, unescape_escapeField] at same
      rw [isOne, isTwo, same]

def mute : Guest where
  systemctl := .error ⟨"No such file or directory (os error 2)"⟩
  readToString _ := .error ⟨"No such file or directory (os error 2)"⟩
  statvfs _ := .error ⟨"No such file or directory (os error 2)"⟩
  metadata _ := .error ⟨"No such file or directory (os error 2)"⟩
  readDir _ := .error ⟨"No such file or directory (os error 2)"⟩

def spacedLines : List Text := ["/dev/vda /a\\040b ext4 rw 0 0".toList, "/dev/vdb /a\\040b ext4 rw 0 0".toList]

theorem unescape_undoes_spaced :
    ∃ earlier ∈ spacedLines.take 1, ∃ other, mountFields earlier = some other ∧
      other.mountPoint = escapeField "/a b".toList := by
  let mount : Mount := ⟨"/dev/vdb".toList, escapeField "/a b".toList, "ext4".toList, "rw".toList⟩
  have fields : spacedLines.map mountFields = [some { mount with device := "/dev/vda".toList }, some mount] := by
    decide +kernel
  have escaped : Escaped spacedLines := by
    intro line member mount' found
    have among : mountFields line ∈ spacedLines.map mountFields := List.mem_map_of_mem member
    rw [fields, found] at among
    refine ⟨"/a b".toList, ?_⟩
    rcases List.mem_cons.mp among with same | last
    · rw [Option.some.inj same]
    · rw [Option.some.inj (List.mem_singleton.mp last)]
  exact unescape_undoes.2.2 mute spacedLines escaped (spacedLines.take 1) "/dev/vdb /a\\040b ext4 rw 0 0".toList [] mount rfl
    (by decide +kernel) (by decide +kernel)

end MinimalVm.Liveness
