import MinimalVm.Json.Record
import MinimalVm.Liveness.Guest

/-! Status reports as JSON.

A guest of an older revision leaves out what its revision does not have, and one
of a newer revision may say more. Both are read: the fields that came later have
defaults, and a record passes over the fields that it does not know.
-/

set_option autoImplicit false

namespace MinimalVm.Liveness

open MinimalVm.Json

namespace SystemdState

def variants : List (String × SystemdState) :=
  [("initializing", .initializing), ("starting", .starting), ("running", .running), ("degraded", .degraded),
    ("maintenance", .maintenance), ("stopping", .stopping), ("unknown", .unknown)]

def name : SystemdState → String
  | initializing => "initializing"
  | starting => "starting"
  | running => "running"
  | degraded => "degraded"
  | maintenance => "maintenance"
  | stopping => "stopping"
  | unknown => "unknown"

def encode (this : SystemdState) : Json := .str this.name

def decode : Decoder SystemdState := decodeUnitEnum variants

theorem decode_encode (this : SystemdState) : decode this.encode = .ok this := by
  apply decodeUnitEnum_name
  cases this <;> rfl

end SystemdState

namespace Usage

def fields (this : Usage) : List (String × Json) := [("used", .int this.used.toNat), ("total", .int this.total.toNat)]

def encode (this : Usage) : Json := .obj this.fields

def visitor : Visitor (Option UInt64 × Option UInt64) :=
  (Visitor.single "used" decodeU64).both (Visitor.single "total" decodeU64)

def finish : Option UInt64 × Option UInt64 → Except DecodeError Usage
  | (used, total) => do
    let used ← required (.missingField "used") used
    let total ← required (.missingField "total") total
    return ⟨used, total⟩

def visitSeq (elements : List Json) : Except DecodeError Usage := do
  let (used, elements) ← nextElement decodeU64 elements
  let used ← required (.invalidLength 0 "struct Usage with 2 elements") used
  let (total, elements) ← nextElement decodeU64 elements
  let total ← required (.invalidLength 1 "struct Usage with 2 elements") total
  endSeq elements ⟨used, total⟩

def decode : Decoder Usage
  | .obj entries => do finish (← visitor.visitMap (none, none) entries)
  | .arr elements => visitSeq elements
  | _ => .error (.invalidType "struct Usage")

/-- A usage that is read from a guest that does not report it. -/
def default : Usage := ⟨0, 0⟩

/-- A usage with any other keys beside its own. -/
def Form (this : Usage) (v : Json) : Prop :=
  ∃ entries, Extends ["used", "total"] this.fields entries ∧ v = .obj entries

theorem form_encode (this : Usage) : this.Form this.encode := ⟨_, .refl _ _, rfl⟩

theorem decode_form {this : Usage} {v : Json} (form : this.Form v) : decode v = .ok this := by
  obtain ⟨entries, written, rfl⟩ := form
  have used : (Visitor.single "used" decodeU64).visitMap none entries = .ok (some this.used) :=
    written.visit_field (by decide) (some (.int this.used.toNat)) (by simp [fields])
      (.later (decodeU64_toNat this.used))
  have total : (Visitor.single "total" decodeU64).visitMap none entries = .ok (some this.total) :=
    written.visit_field (by decide) (some (.int this.total.toNat)) (by simp [fields])
      (.later (decodeU64_toNat this.total))
  have visited : visitor.visitMap (none, none) entries = .ok (some this.used, some this.total) :=
    Visitor.visitMap_both (by decide) used total
  rw [decode, visited]
  rfl

end Usage

namespace FileSystemUsage

def textJson (text : Text) : Json := .str (String.ofList text)

def decodeText (v : Json) : Except DecodeError Text := (decodeString v).map String.toList

theorem decodeText_textJson (text : Text) : decodeText (textJson text) = .ok text := by
  rw [decodeText, textJson, decodeString, Except.map, String.toList_ofList]

def encode (this : FileSystemUsage) : Json :=
  .obj [("mount_point", textJson this.mountPoint), ("label", encodeOption textJson this.label),
    ("usage", this.usage.encode)]

def visitor : Visitor (Option Text × Option (Option Text) × Option Usage) :=
  (Visitor.single "mount_point" decodeText).both
    ((Visitor.single "label" (decodeOption decodeText)).both (Visitor.single "usage" Usage.decode))

def finish : Option Text × Option (Option Text) × Option Usage → Except DecodeError FileSystemUsage
  | (mountPoint, label, usage) => do
    let mountPoint ← required (.missingField "mount_point") mountPoint
    let usage ← required (.missingField "usage") usage
    return ⟨mountPoint, label.getD none, usage⟩

def visitSeq (elements : List Json) : Except DecodeError FileSystemUsage := do
  let (mountPoint, elements) ← nextElement decodeText elements
  let mountPoint ← required (.invalidLength 0 "struct FileSystemUsage with 3 elements") mountPoint
  let (label, elements) ← nextElement (decodeOption decodeText) elements
  let (usage, elements) ← nextElement Usage.decode elements
  let usage ← required (.invalidLength 2 "struct FileSystemUsage with 3 elements") usage
  endSeq elements ⟨mountPoint, label.getD none, usage⟩

def decode : Decoder FileSystemUsage
  | .obj entries => do finish (← visitor.visitMap (none, none, none) entries)
  | .arr elements => visitSeq elements
  | _ => .error (.invalidType "struct FileSystemUsage")

def Form (this : FileSystemUsage) (v : Json) (read : FileSystemUsage) : Prop :=
  ∃ label readLabel usage entries,
    Part (fun label v read => v = encodeOption textJson label ∧ read = label) none this.label label readLabel ∧
      this.usage.Form usage ∧
      Extends ["mount_point", "label", "usage"]
        (("mount_point", textJson this.mountPoint) :: (optional "label" label ++ [("usage", usage)])) entries ∧
      v = .obj entries ∧ read = { this with label := readLabel }

theorem form_encode (this : FileSystemUsage) : this.Form this.encode this :=
  ⟨_, _, _, _, .kept ⟨rfl, rfl⟩, this.usage.form_encode, .refl _ _, rfl, rfl⟩

theorem decode_label (label : Option Text) : decodeOption decodeText (encodeOption textJson label) = .ok label := by
  cases label with
  | none => rfl
  | some label =>
    have decoded := decodeText_textJson label
    rw [textJson] at decoded
    rw [encodeOption, textJson, decodeOption, decoded, Except.map]
    nofun

theorem decode_form {this read : FileSystemUsage} {v : Json} (form : this.Form v read) : decode v = .ok read := by
  obtain ⟨label, readLabel, usage, entries, part, usageForm, written, rfl, rfl⟩ := form
  have decodes : ∀ v read, v = encodeOption textJson this.label ∧ read = this.label →
      decodeOption decodeText v = .ok read := by
    rintro _ _ ⟨rfl, rfl⟩
    exact decode_label this.label
  obtain ⟨out, met, rfl⟩ := part.met decodes
  have mountPoint : (Visitor.single "mount_point" decodeText).visitMap none entries = .ok (some this.mountPoint) :=
    written.visit_field (by decide) (some (textJson this.mountPoint))
      (by simp) (.later (decodeText_textJson _))
  have visitLabel : (Visitor.single "label" (decodeOption decodeText)).visitMap none entries = .ok out :=
    written.visit_field (by decide) label (by simp) met
  have visitUsage : (Visitor.single "usage" Usage.decode).visitMap none entries = .ok (some this.usage) :=
    written.visit_field (by decide) (some usage)
      (by simp) (.later (Usage.decode_form usageForm))
  have visited : visitor.visitMap (none, none, none) entries = .ok (some this.mountPoint, out, some this.usage) :=
    Visitor.visitMap_both (by decide) mountPoint (Visitor.visitMap_both (by decide) visitLabel visitUsage)
  rw [decode, visited]
  rfl

end FileSystemUsage

/-! ## Reports -/

namespace Wire

/-- A status as it is sent, with the load rounded to a double, which stands here
for its bits. -/
structure Status where
  systemd : SystemdState
  cpuPercent : UInt64
  memory : Usage
  swap : Usage
  disks : List FileSystemUsage
  deriving DecidableEq, Repr

namespace Status

def encode (this : Status) : Json :=
  .obj [("systemd", this.systemd.encode), ("cpu_percent", encodeF64 this.cpuPercent), ("memory", this.memory.encode),
    ("swap", this.swap.encode), ("disks", .arr (this.disks.map FileSystemUsage.encode))]

abbrev Fields : Type :=
  Option SystemdState × Option UInt64 × Option Usage × Option Usage × Option (List FileSystemUsage)

def visitor : Visitor Fields :=
  (Visitor.single "systemd" SystemdState.decode).both
    ((Visitor.single "cpu_percent" decodeF64).both
      ((Visitor.single "memory" Usage.decode).both
        ((Visitor.single "swap" Usage.decode).both
          (Visitor.single "disks" (decodeVec FileSystemUsage.decode)))))

def finish : Fields → Except DecodeError Status
  | (systemd, cpuPercent, memory, swap, disks) => do
    let systemd ← required (.missingField "systemd") systemd
    let cpuPercent ← required (.missingField "cpu_percent") cpuPercent
    let memory ← required (.missingField "memory") memory
    -- Only what is left out has a default: a `null` is met and refused.
    return ⟨systemd, cpuPercent, memory, swap.getD .default, disks.getD []⟩

def visitSeq (elements : List Json) : Except DecodeError Status := do
  let (systemd, elements) ← nextElement SystemdState.decode elements
  let systemd ← required (.invalidLength 0 "struct Status with 5 elements") systemd
  let (cpuPercent, elements) ← nextElement decodeF64 elements
  let cpuPercent ← required (.invalidLength 1 "struct Status with 5 elements") cpuPercent
  let (memory, elements) ← nextElement Usage.decode elements
  let memory ← required (.invalidLength 2 "struct Status with 5 elements") memory
  let (swap, elements) ← nextElement Usage.decode elements
  let (disks, elements) ← nextElement (decodeVec FileSystemUsage.decode) elements
  endSeq elements ⟨systemd, cpuPercent, memory, swap.getD .default, disks.getD []⟩

def decode : Decoder Status
  | .obj entries => do finish (← visitor.visitMap (none, none, none, none, none) entries)
  | .arr elements => visitSeq elements
  | _ => .error (.invalidType "struct Status")

end Status

inductive Message where
  | status (status : Status)
  deriving DecidableEq, Repr

namespace Message

def encode : Message → Json
  | .status this => .obj [("status", this.encode)]

def decode : Decoder Message := decodeEnum [("status", newtype Status.decode .status)]

end Message

namespace Status

def known : List String := ["systemd", "cpu_percent", "memory", "swap", "disks"]

/-- A status with or without what came later, each disk with its label or
without, and any other keys anywhere; and what is read of it. -/
def Form (this : Status) (v : Json) (read : Status) : Prop :=
  ∃ memory swap readSwap disks readDisks entries,
    this.memory.Form memory ∧
      Part (fun usage v read => usage.Form v ∧ read = usage) .default this.swap swap readSwap ∧
      Part (fun disks v read => ∃ elements, v = .arr elements ∧ Each FileSystemUsage.Form disks elements read) []
        this.disks disks readDisks ∧
      Extends known
        (("systemd", this.systemd.encode) :: ("cpu_percent", encodeF64 this.cpuPercent) :: ("memory", memory) ::
          (optional "swap" swap ++ optional "disks" disks)) entries ∧
      v = .obj entries ∧ read = { this with swap := readSwap, disks := readDisks }

theorem form_encode (this : Status) : this.Form this.encode this :=
  ⟨_, _, _, _, _, _, this.memory.form_encode, .kept ⟨this.swap.form_encode, rfl⟩,
    .kept ⟨_, rfl, Each.of_encode FileSystemUsage.form_encode this.disks⟩, .refl _ _, rfl, rfl⟩

theorem decode_form {this read : Status} {v : Json} (finite : isFinite this.cpuPercent = true)
    (form : this.Form v read) : decode v = .ok read := by
  obtain ⟨memory, swap, readSwap, disks, readDisks, entries, memoryForm, partSwap, partDisks, written, rfl, rfl⟩ := form
  have decodesSwap : ∀ v read, this.swap.Form v ∧ read = this.swap → Usage.decode v = .ok read := by
    rintro v _ ⟨usageForm, rfl⟩
    exact Usage.decode_form usageForm
  have decodesDisks : ∀ v read, (∃ elements, v = .arr elements ∧ Each FileSystemUsage.Form this.disks elements read) →
      decodeVec FileSystemUsage.decode v = .ok read := by
    rintro _ read ⟨elements, rfl, each⟩
    exact each.mapM_ok fun _ _ _ => FileSystemUsage.decode_form
  obtain ⟨outSwap, metSwap, rfl⟩ := partSwap.met decodesSwap
  obtain ⟨outDisks, metDisks, rfl⟩ := partDisks.met decodesDisks
  have visited : visitor.visitMap (none, none, none, none, none) entries =
      .ok (some this.systemd, some this.cpuPercent, some this.memory, outSwap, outDisks) := by
    refine Visitor.visitMap_both (by decide) ?_ (Visitor.visitMap_both (by decide) ?_
      (Visitor.visitMap_both (by decide) ?_ (Visitor.visitMap_both (by decide) ?_ ?_)))
    · refine written.visit_field (by decide) (some this.systemd.encode) ?_ (.later this.systemd.decode_encode)
      simp
    · refine written.visit_field (by decide) (some (encodeF64 this.cpuPercent)) ?_ (.later (decodeF64_encodeF64 finite))
      simp
    · refine written.visit_field (by decide) (some memory) ?_ (.later (Usage.decode_form memoryForm))
      simp
    · refine written.visit_field (by decide) swap ?_ metSwap
      simp
    · refine written.visit_field (by decide) disks ?_ metDisks
      simp
  rw [decode, visited]
  rfl

end Status

theorem Message.decode_form {status read : Status} {v : Json} (finite : isFinite status.cpuPercent = true)
    (form : status.Form v read) : decode (.obj [("status", v)]) = .ok (.status read) :=
  decodeEnum_newtype rfl (Status.decode_form finite form)

end Wire

end MinimalVm.Liveness
