import MinimalVm.Liveness.Mounts

/-! The labels of devices.

A node of the label directories denotes a device and lies on the filesystem of
the device nodes, and both have an id. The label of a disk is looked up by the
id of where the nodes lie, so that it is found for no device that a node denotes.
-/

set_option autoImplicit false

namespace MinimalVm.Liveness

open MinimalVm.Semantics

def byLabel : String := "/dev/disk/by-label"

def byId : String := "/dev/disk/by-id"

def entriesOf (guest : Guest) (dir : String) : List DirEntry :=
  match guest.readDir dir with
  | .error _ => []
  | .ok entries => entries.filterMap Except.toOption

/-- The entry leads to a node of the device. -/
def DirEntry.Denotes (this : DirEntry) (device : UInt64) : Prop :=
  ∃ target, this.target = .ok target ∧ target.rdev = device

def Denoted (guest : Guest) (device : UInt64) (dir : String) : Prop :=
  ∃ entry ∈ entriesOf guest dir, entry.Denotes device

def Named (guest : Guest) (device : UInt64) (dir : String) (name : Text) : Prop :=
  ∃ entry ∈ entriesOf guest dir, entry.Denotes device ∧ entry.fileName = some name

/-- What the label of a device should be: the name of an entry that denotes it,
from the directory of labels if there is one. -/
structure Labels (guest : Guest) (device : UInt64) (label : Option Text) : Prop where
  present : label.isSome = true ↔ Denoted guest device byLabel ∨ Denoted guest device byId
  named : ∀ name, label = some name →
    Named guest device byLabel name ∨ ¬ Denoted guest device byLabel ∧ Named guest device byId name

/-- The nodes all lie on one filesystem. -/
def NodesOn (guest : Guest) (nodes : UInt64) : Prop :=
  ∀ dir, ∀ entry ∈ entriesOf guest dir, ∀ target, entry.target = .ok target → target.dev = nodes

def DirEntry.canFollow (this : DirEntry) : Bool := this.target.isOk && this.fileName.isSome

/-- The first of the entries of both directories that can be followed. -/
def firstFollowed (guest : Guest) : Option DirEntry :=
  (entriesOf guest byLabel ++ entriesOf guest byId).find? DirEntry.canFollow

theorem labelIn_entries (guest : Guest) (device : UInt64) (dir : String) :
    labelIn guest device dir = (entriesOf guest dir).findSome? fun entry =>
      match entry.target with
      | .error _ => none
      | .ok target => if target.dev ≠ device then none else entry.fileName := by
  unfold labelIn entriesOf
  cases guest.readDir dir <;> rfl

section
variable {guest : Guest} {nodes device : UInt64}

theorem findSome_followed (entries : List DirEntry) :
    (entries.findSome? fun entry => if entry.canFollow then entry.fileName else none) =
      (entries.find? DirEntry.canFollow).bind DirEntry.fileName := by
  induction entries with
  | nil => rfl
  | cons entry entries ih =>
    rw [List.findSome?_cons, List.find?_cons]
    cases follows : entry.canFollow with
    | false => exact ih
    | true =>
      obtain ⟨name, named⟩ := Option.isSome_iff_exists.mp (Bool.and_eq_true_iff.mp follows).2
      simp [named]

/-- Every node passes for one of the device it lies on. -/
theorem deviceLabel_nodes (held : NodesOn guest nodes) :
    deviceLabel guest nodes = (firstFollowed guest).bind DirEntry.fileName := by
  have labels (dir : String) : labelIn guest nodes dir =
      (entriesOf guest dir).findSome? fun entry => if entry.canFollow then entry.fileName else none := by
    rw [labelIn_entries, ← List.head?_filterMap, ← List.head?_filterMap]
    refine congrArg List.head? (List.filterMap_congr fun entry member => ?_)
    unfold DirEntry.canFollow
    cases leads : entry.target with
    | error cause => rfl
    | ok target =>
      cases entry.fileName <;> simp [held dir entry member target leads, Except.isOk, Except.toBool]
  rw [firstFollowed, ← findSome_followed, List.findSome?_append, ← labels, ← labels]
  rfl

theorem labelIn_apart (held : NodesOn guest nodes) (apart : device ≠ nodes) (dir : String) :
    labelIn guest device dir = none := by
  rw [labelIn_entries, List.findSome?_eq_none_iff]
  intro entry member
  cases leads : entry.target with
  | error cause => rfl
  | ok target => simp [held dir entry member target leads, Ne.symm apart]

theorem labels_none : Labels guest device none ↔ ¬ Denoted guest device byLabel ∧ ¬ Denoted guest device byId := by
  constructor
  · intro labels
    rw [← not_or]
    exact fun denoted => absurd (labels.present.mpr denoted) Bool.false_ne_true
  · rintro ⟨noLabel, noId⟩
    refine ⟨⟨fun some => ?_, fun denoted => ?_⟩, nofun⟩
    · cases some
    · exact absurd denoted (not_or.mpr ⟨noLabel, noId⟩)

theorem labels_some {name : Text} : Labels guest device (some name) ↔
    Named guest device byLabel name ∨ ¬ Denoted guest device byLabel ∧ Named guest device byId name := by
  refine ⟨fun labels => labels.named name rfl, fun named => ⟨⟨fun _ => ?_, fun _ => rfl⟩, fun other same => ?_⟩⟩
  · rcases named with ⟨entry, member, denotes, -⟩ | ⟨-, entry, member, denotes, -⟩
    · exact .inl ⟨entry, member, denotes⟩
    · exact .inr ⟨entry, member, denotes⟩
  · cases same
    exact named

end

/-- The label is right for a device that has none. For the filesystem of the
nodes itself it depends on which entry comes first. -/
theorem deviceLabel_right (guest : Guest) (nodes device : UInt64) (held : NodesOn guest nodes) :
    Labels guest device (deviceLabel guest device) ↔
      (device ≠ nodes → ¬ Denoted guest device byLabel ∧ ¬ Denoted guest device byId) ∧
        (device = nodes →
          (firstFollowed guest = none → ¬ Denoted guest device byLabel ∧ ¬ Denoted guest device byId) ∧
          ∀ entry name, firstFollowed guest = some entry → entry.fileName = some name →
            Named guest device byLabel name ∨ ¬ Denoted guest device byLabel ∧ Named guest device byId name) := by
  by_cases same : device = nodes
  · subst same
    rw [deviceLabel_nodes held]
    cases first : firstFollowed guest with
    | none => simp [labels_none]
    | some entry =>
      have follows : entry.canFollow = true := List.find?_some first
      obtain ⟨name, named⟩ := Option.isSome_iff_exists.mp (Bool.and_eq_true_iff.mp follows).2
      rw [Option.bind_some, named, labels_some]
      constructor
      · refine fun right => ⟨fun apart => absurd rfl apart, fun _ => ⟨by simp, fun other name' same named' => ?_⟩⟩
        cases same
        cases named.symm.trans named'
        exact right
      · exact fun both => (both.2 rfl).2 entry name rfl named
  · have apart : deviceLabel guest device = none := by
      unfold deviceLabel
      rw [labelIn_apart held same, labelIn_apart held same]
      rfl
    rw [apart, labels_none]
    exact ⟨fun absent => ⟨fun _ => absent, fun equal => absurd equal same⟩, fun both => both.1 same⟩

def labelled : Guest where
  systemctl := .ok "running\n".toList
  readToString _ := .ok "/dev/vdb /scratch ext4 rw 0 0\n".toList
  statvfs _ := .ok ⟨4096, 4096, 1000, 400⟩
  metadata _ := .ok ⟨65040, 0⟩
  readDir dir :=
    if dir = byLabel then .ok [.ok ⟨some "scratch".toList, .ok ⟨5, 65040⟩⟩]
    else .error ⟨"No such file or directory (os error 2)"⟩

theorem labelled_nodes : NodesOn labelled 5 := by
  intro dir entry member target leads
  unfold entriesOf labelled at member
  dsimp only at member
  by_cases same : dir = byLabel
  · rw [if_pos same] at member
    cases List.mem_singleton.mp member
    cases leads
    rfl
  · rw [if_neg same] at member
    cases member

theorem deviceLabel_right_unlabelled : Labels labelled 65024 (deviceLabel labelled 65024) := by
  refine (deviceLabel_right labelled 5 65024 labelled_nodes).mpr ⟨fun _ => ⟨?_, ?_⟩, fun same => ?_⟩
  · rintro ⟨entry, member, target, leads, denotes⟩
    cases List.mem_singleton.mp member
    cases leads
    exact absurd denotes (by decide)
  · rintro ⟨entry, member, -⟩
    cases member
  · exact absurd same (by decide)

/-- A disk with a label gets none either. -/
theorem deviceLabel_missing : NodesOn labelled 5 ∧ ¬ Labels labelled 65040 (deviceLabel labelled 65040) := by
  refine ⟨labelled_nodes, fun labels => ?_⟩
  have missing : deviceLabel labelled 65040 = none := by decide +kernel
  rw [missing] at labels
  refine (labels_none.mp labels).1 ⟨⟨some "scratch".toList, .ok ⟨5, 65040⟩⟩, ?_, ⟨5, 65040⟩, rfl, rfl⟩
  exact List.mem_singleton_self _

end MinimalVm.Liveness
