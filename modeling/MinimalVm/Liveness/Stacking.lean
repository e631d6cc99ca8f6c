import MinimalVm.Liveness.Disks
import MinimalVm.Semantics.Fallible

/-! Mounts on top of each other.

A path leads to the mount that is listed last for it, and this one is measured
whichever line asked for it. So a line that can be reported itself may report a
mount that covers it.
-/

set_option autoImplicit false

namespace MinimalVm.Liveness

open MinimalVm.Semantics MinimalVm.Text

/-- The mount that some lines leave visible at a path. -/
def visibleIn (ls : List Text) (path : Text) : Option Mount :=
  (ls.filterMap mountFields).reverse.find? fun mount => unescapeMountPoint mount.mountPoint == path

def visible (mounts path : Text) : Option Mount := visibleIn (lines mounts) path

/-- A mount whose usage is the guest's to report. -/
def Mount.isOwn (this : Mount) : Bool := !this.isShared && !this.isReadOnly

theorem eligible_mount {guest : Guest} {line : Text} {sample : Sample} (reportable : eligible guest line = some sample) :
    ∃ mount, mountFields line = some mount ∧ unescapeMountPoint mount.mountPoint = sample.mountPoint ∧
      mount.isOwn = true := by
  unfold eligible at reportable
  split at reportable
  · cases reportable
  · rename_i mount fields
    dsimp only at reportable
    split at reportable
    · cases reportable
    · rename_i own
      rw [Bool.not_eq_true, Bool.or_eq_false_iff, Bool.or_eq_false_iff] at own
      refine ⟨mount, fields, (measure_mountPoint reportable).symm, ?_⟩
      rw [Mount.isOwn, own.1.1, own.1.2]
      rfl

theorem visibleIn_append_cons {first rest : List Text} {line path : Text} {mount : Mount}
    (fields : mountFields line = some mount) (point : unescapeMountPoint mount.mountPoint = path) :
    visibleIn (first ++ line :: rest) path = some ((visibleIn rest path).getD mount) := by
  unfold visibleIn
  rw [List.filterMap_append, List.filterMap_cons_some fields, List.reverse_append, List.reverse_cons,
    List.append_assoc, List.find?_append]
  cases (rest.filterMap mountFields).reverse.find? fun mount => unescapeMountPoint mount.mountPoint == path with
  | some later => rfl
  | none => simp [point]

/-- No line that is reported, being the first of its device that can be, is
covered by a later mount that is shared or read-only. -/
def Uncovered (guest : Guest) (mounts : Text) : Prop :=
  ∀ first line rest sample, lines mounts = first ++ line :: rest → eligible guest line = some sample →
    (∀ earlier ∈ first, ∀ other, eligible guest earlier = some other → other.device guest ≠ sample.device guest) →
    ∀ mount, visibleIn rest sample.mountPoint = some mount → mount.isOwn = true

/-- The report is about the guest's own writable filesystems just if no line of
it is covered by a mount of another kind. -/
theorem reports_own (guest : Guest) (mounts : Text) (reported : List FileSystemUsage)
    (read : guest.readToString "/proc/mounts" = .ok mounts) (found : disks guest = .ok reported) :
    (∀ disk ∈ reported, ∃ mount, visible mounts disk.mountPoint = some mount ∧ mount.isShared = false ∧
      mount.isReadOnly = false) ↔ Uncovered guest mounts := by
  cases found.symm.trans (disks_eq read)
  have own {mount : Mount} : mount.isShared = false ∧ mount.isReadOnly = false ↔ mount.isOwn = true := by
    simp [Mount.isOwn]
  simp only [own]
  constructor
  · intro owns first line rest sample split reportable earlier mount covers
    obtain ⟨below, fields, point, -⟩ := eligible_mount reportable
    have kept : sample ∈ firsts (Sample.device guest) (samples guest mounts) :=
      mem_firsts_filterMap.mpr ⟨first, line, rest, split, reportable, earlier⟩
    obtain ⟨top, shown, isOwn⟩ := owns _ (List.mem_map_of_mem kept)
    have shows : visible mounts sample.mountPoint = some mount := by
      rw [visible, split, visibleIn_append_cons fields point, covers]
      rfl
    cases shows.symm.trans shown
    exact isOwn
  · intro uncovered disk member
    obtain ⟨sample, kept, rfl⟩ := List.mem_map.mp member
    obtain ⟨first, line, rest, split, reportable, earlier⟩ := mem_firsts_filterMap.mp kept
    obtain ⟨mount, fields, point, isOwn⟩ := eligible_mount reportable
    have shows : visible mounts sample.mountPoint = some ((visibleIn rest sample.mountPoint).getD mount) := by
      rw [visible, split, visibleIn_append_cons fields point]
    refine ⟨_, shows, ?_⟩
    cases covers : visibleIn rest sample.mountPoint with
    | none => exact isOwn
    | some top => exact uncovered first line rest sample split reportable earlier top covers

/-- A guest in which every path leads to the mount that is listed last for it. -/
def resolving (mounts : Text) (stat : Mount → StatVfs) (dev : Mount → UInt64) : Guest where
  systemctl := .ok "running\n".toList
  readToString _ := .ok mounts
  statvfs path :=
    match visible mounts path with
    | some mount => .ok (stat mount)
    | none => .error ⟨"No such file or directory (os error 2)"⟩
  metadata path :=
    match visible mounts path with
    | some mount => .ok ⟨dev mount, 0⟩
    | none => .error ⟨"No such file or directory (os error 2)"⟩
  readDir _ := .error ⟨"No such file or directory (os error 2)"⟩

def sharing (mounts : Text) : Guest :=
  resolving mounts (fun mount => if mount.isShared then ⟨4096, 4096, 1000000, 1⟩ else ⟨4096, 4096, 1000, 400⟩)
    fun mount => if mount.isShared then 40 else 64512

def separateMounts : Text := "/dev/vda / ext4 rw 0 0\nhost /mnt 9p rw 0 0\n".toList

def stackedMounts : Text := "/dev/vda /mnt ext4 rw 0 0\nhost /mnt 9p rw 0 0\n".toList

theorem reports_own_separate : Uncovered (sharing separateMounts) separateMounts := by
  have computed : (disks (sharing separateMounts)).toOption =
      some [⟨"/".toList, none, ⟨2457600, 4096000⟩⟩] := by decide +kernel
  refine (reports_own _ _ _ rfl (ok_of_toOption computed)).mp fun disk member => ?_
  cases List.mem_singleton.mp member
  exact ⟨⟨"/dev/vda".toList, "/".toList, "ext4".toList, "rw".toList⟩, by decide +kernel⟩

/-- A share of the host that covers a disk is reported in its place. -/
theorem reports_shared :
    ∃ reported, disks (sharing stackedMounts) = .ok reported ∧
      ∃ disk ∈ reported, ∃ mount, visible stackedMounts disk.mountPoint = some mount ∧ mount.isShared = true := by
  have computed : (disks (sharing stackedMounts)).toOption =
      some [⟨"/mnt".toList, none, ⟨4095995904, 4096000000⟩⟩] := by decide +kernel
  refine ⟨_, ok_of_toOption computed, _, List.mem_singleton_self _, ?_⟩
  exact ⟨⟨"host".toList, "/mnt".toList, "9p".toList, "rw".toList⟩, by decide +kernel⟩

end MinimalVm.Liveness
