import MinimalVm.Liveness.Mounts
import MinimalVm.Text.Firsts

/-! What the loop over the mounts finds.

A line is eligible or not whatever stands before it, and of the eligible lines
the first of each device is reported. The list of mount points that have been
seen saves measuring them again and changes nothing: a mount point is on one
device, which has been found already or cannot be reported at all.
-/

set_option autoImplicit false

namespace MinimalVm.Liveness

open MinimalVm.Semantics MinimalVm.Text

/-- A mount point that can be reported. -/
structure Sample where
  mountPoint : Text
  usage : Usage
  deriving DecidableEq, Repr

def measure (guest : Guest) (mountPoint : Text) : Option Sample :=
  match diskOf guest mountPoint with
  | .error _ => none
  | .ok usage => if 0 < usage.total then some ⟨mountPoint, usage⟩ else none

/-- A line that can be reported: its fields are those of a writable filesystem
of the guest, and the guest has blocks at its mount point. -/
def eligible (guest : Guest) (line : Text) : Option Sample :=
  match mountFields line with
  | none => none
  | some mount =>
    let mountPoint := unescapeMountPoint mount.mountPoint
    if mount.isShared || mount.isReadOnly || isRuntimeMount mountPoint then none else measure guest mountPoint

def Sample.device (guest : Guest) (this : Sample) : UInt64 := deviceAt guest this.mountPoint

def Sample.report (guest : Guest) (this : Sample) : FileSystemUsage :=
  ⟨this.mountPoint, deviceLabel guest (this.device guest), this.usage⟩

theorem measure_mountPoint {guest : Guest} {mountPoint : Text} {sample : Sample}
    (measured : measure guest mountPoint = some sample) : sample.mountPoint = mountPoint := by
  unfold measure at measured
  split at measured
  · cases measured
  · split at measured
    · cases measured
      rfl
    · cases measured

def Found.Covers (guest : Guest) (this : Found) : Prop :=
  ∀ mountPoint ∈ this.seen, (measure guest mountPoint).isSome = true → deviceAt guest mountPoint ∈ this.devices

/-- What a line does to what has been found. -/
inductive Visit (guest : Guest) (found : Found) : Option Sample → Found → Prop
  | skips : Visit guest found none found
  | unmeasured {mountPoint : Text} : measure guest mountPoint = none →
      Visit guest found none { found with seen := found.seen ++ [mountPoint] }
  | seen {sample : Sample} : sample.mountPoint ∈ found.seen → measure guest sample.mountPoint = some sample →
      Visit guest found (some sample) found
  | known {sample : Sample} : measure guest sample.mountPoint = some sample → sample.device guest ∈ found.devices →
      Visit guest found (some sample) { found with seen := found.seen ++ [sample.mountPoint] }
  | adds {sample : Sample} : measure guest sample.mountPoint = some sample → sample.device guest ∉ found.devices →
      Visit guest found (some sample)
        ⟨found.seen ++ [sample.mountPoint], found.devices ++ [sample.device guest],
          found.disks ++ [sample.report guest]⟩

theorem measure_none {guest : Guest} {mountPoint : Text} {usage : Usage} (measured : diskOf guest mountPoint = .ok usage)
    (empty : ¬ 0 < usage.total) : measure guest mountPoint = none := by
  simp [measure, measured, empty]

theorem measure_some {guest : Guest} {mountPoint : Text} {usage : Usage} (measured : diskOf guest mountPoint = .ok usage)
    (blocks : 0 < usage.total) : measure guest mountPoint = some ⟨mountPoint, usage⟩ := by
  simp [measure, measured, blocks]

theorem measure_failed {guest : Guest} {mountPoint : Text} {error : DiskError}
    (failed : diskOf guest mountPoint = .error error) : measure guest mountPoint = none := by
  simp [measure, failed]

theorem visit_eligible (guest : Guest) (found : Found) (line : Text) :
    Visit guest found (eligible guest line) (visit guest found line) := by
  -- The loop and the sample ask the same questions, but the loop asks about what it has seen in
  -- between.
  unfold visit eligible
  cases mountFields line with
  | none => exact .skips
  | some mount =>
    dsimp only
    generalize unescapeMountPoint mount.mountPoint = mountPoint
    cases mount.isShared with
    | true => exact .skips
    | false =>
      cases mount.isReadOnly with
      | true => exact .skips
      | false =>
        cases isRuntimeMount mountPoint with
        | true => exact .skips
        | false =>
          simp only [Bool.or_self, Bool.false_eq_true, if_false]
          split
          · rename_i member
            cases measured : measure guest mountPoint with
            | none => exact .skips
            | some sample =>
              cases measure_mountPoint measured
              exact .seen (List.contains_iff_mem.mp member) measured
          · split
            · rename_i failed
              rw [measure_failed failed]
              exact .unmeasured (measure_failed failed)
            · rename_i usage measured
              split
              · rename_i blocks
                have some := measure_some measured blocks
                rw [some]
                split
                · rename_i member
                  exact .known some (List.contains_iff_mem.mp member)
                · rename_i member
                  exact .adds some fun inside => member (List.contains_iff_mem.mpr inside)
              · rename_i empty
                rw [measure_none measured empty]
                exact .unmeasured (measure_none measured empty)

theorem Found.Covers.snoc {guest : Guest} {found : Found} {mountPoint : Text} {devices : List UInt64}
    {disks : List FileSystemUsage} (before : found.Covers guest) (kept : found.devices ⊆ devices)
    (last : (measure guest mountPoint).isSome = true → deviceAt guest mountPoint ∈ devices) :
    Found.Covers guest ⟨found.seen ++ [mountPoint], devices, disks⟩ := by
  intro other member measured
  rcases List.mem_append.mp member with earlier | now
  · exact kept (before other earlier measured)
  · cases List.mem_singleton.mp now
    exact last measured

theorem Visit.covers {guest : Guest} {found found' : Found} {sample : Option Sample}
    (visit : Visit guest found sample found') (before : found.Covers guest) : found'.Covers guest := by
  cases visit with
  | skips | seen => exact before
  | unmeasured none =>
    refine before.snoc (List.Subset.refl _) fun some => ?_
    rw [none] at some
    cases some
  | known measured member => exact before.snoc (List.Subset.refl _) fun _ => member
  | adds measured absent =>
    refine before.snoc (List.subset_append_left _ _) fun _ => ?_
    exact List.mem_append_right _ (List.mem_singleton_self _)

theorem foldl_visit (guest : Guest) (ls : List Text) (found : Found) (covers : found.Covers guest) :
    (ls.foldl (visit guest) found).disks =
      found.disks ++ (firstsAfter (Sample.device guest) found.devices (ls.filterMap (eligible guest))).map
        (Sample.report guest) := by
  induction ls generalizing found with
  | nil => exact (List.append_nil _).symm
  | cons line ls ih =>
    have visited := visit_eligible guest found line
    rw [List.foldl_cons, ih _ (visited.covers covers)]
    generalize eligible_line : eligible guest line = sample at visited
    generalize visit guest found line = found' at visited
    cases visited with
    | skips | unmeasured => rw [List.filterMap_cons_none eligible_line]
    | seen member measured =>
      rw [List.filterMap_cons_some eligible_line, firstsAfter_seen]
      exact covers _ member (by rw [measured]; rfl)
    | known measured member => rw [List.filterMap_cons_some eligible_line, firstsAfter_seen member]
    | adds measured absent =>
      rw [List.filterMap_cons_some eligible_line, firstsAfter_unseen absent, List.map_cons, List.append_assoc]
      rfl

/-- The lines that can be reported, in the order of the table. -/
def samples (guest : Guest) (mounts : Text) : List Sample := (lines mounts).filterMap (eligible guest)

theorem disks_eq {guest : Guest} {mounts : Text} (read : guest.readToString "/proc/mounts" = .ok mounts) :
    disks guest = .ok ((firsts (Sample.device guest) (samples guest mounts)).map (Sample.report guest)) := by
  unfold disks Guest.read
  rw [read]
  exact congrArg Except.ok (foldl_visit guest (lines mounts) ⟨[], [], []⟩ nofun)

/-! ## One report for each filesystem -/

section
variable {guest : Guest} {mounts : Text} {sample : Sample}

theorem measure_statvfs {mountPoint : Text} (measured : measure guest mountPoint = some sample) :
    ∃ stat, guest.statvfs mountPoint = .ok stat := by
  unfold measure diskOf at measured
  split at measured
  · cases measured
  · rename_i measures
    split at measures
    · cases measures
    · split at measures
      · cases measures
      · exact ⟨_, ‹_›⟩

theorem eligible_measured {line : Text} (reportable : eligible guest line = some sample) :
    measure guest sample.mountPoint = some sample := by
  unfold eligible at reportable
  split at reportable
  · cases reportable
  · dsimp only at reportable
    split at reportable
    · cases reportable
    · rw [measure_mountPoint reportable]
      exact reportable

theorem mem_samples : sample ∈ samples guest mounts ↔ ∃ line ∈ lines mounts, eligible guest line = some sample :=
  List.mem_filterMap

theorem deviceAt_eq {path : Text} {target : Metadata} (found : guest.metadata path = .ok target) :
    deviceAt guest path = target.dev := by
  rw [deviceAt, found]

end

/-- The report is the first line of each device that can be reported, so that
every mount point and every device of the report is there once, and every device
with a line that can be reported is there. -/
theorem disks_first_of_each (guest : Guest) (mounts : Text)
    (stats : ∀ path stat, guest.statvfs path = .ok stat → ∃ target, guest.metadata path = .ok target)
    (read : guest.readToString "/proc/mounts" = .ok mounts) :
    ∃ reported, disks guest = .ok reported ∧
      reported = (firsts (Sample.device guest) (samples guest mounts)).map (Sample.report guest) ∧
      (reported.map (·.mountPoint)).Nodup ∧ (reported.map fun disk => deviceAt guest disk.mountPoint).Nodup ∧
      (∀ disk ∈ reported, ∃ line ∈ lines mounts, eligible guest line = some ⟨disk.mountPoint, disk.usage⟩) ∧
      ∀ line ∈ lines mounts, ∀ sample, eligible guest line = some sample →
        ∃ target, guest.metadata sample.mountPoint = .ok target ∧
          ∃ disk ∈ reported, deviceAt guest disk.mountPoint = target.dev ∧
            ∀ other ∈ reported, deviceAt guest other.mountPoint = target.dev → other = disk := by
  have devices : ((firsts (Sample.device guest) (samples guest mounts)).map (Sample.device guest)).Nodup :=
    firsts_keys _ _
  refine ⟨_, disks_eq read, rfl, ?_, ?_, ?_, ?_⟩
  · rw [List.map_map]
    have points : (((firsts (Sample.device guest) (samples guest mounts)).map Sample.mountPoint).map
        (deviceAt guest)).Nodup := by
      rw [List.map_map]
      exact devices
    exact points.of_map
  · rw [List.map_map]
    exact devices
  · intro disk member
    obtain ⟨sample, kept, rfl⟩ := List.mem_map.mp member
    exact mem_samples.mp (firsts_subset kept)
  · intro line member sample reportable
    obtain ⟨stat, measured⟩ := measure_statvfs (eligible_measured reportable)
    obtain ⟨target, found⟩ := stats _ stat measured
    obtain ⟨first, kept, same⟩ :
        ∃ first ∈ firsts (Sample.device guest) (samples guest mounts), first.device guest = sample.device guest :=
      firsts_complete (mem_samples.mpr ⟨line, member, reportable⟩)
    have device : sample.device guest = target.dev := deviceAt_eq found
    refine ⟨target, found, first.report guest, List.mem_map_of_mem kept, same.trans device, fun other reported equal => ?_⟩
    obtain ⟨last, keptLast, rfl⟩ := List.mem_map.mp reported
    exact congrArg (Sample.report guest) (firsts_unique keptLast kept (equal.trans (same.trans device).symm))

def bound : Guest where
  systemctl := .ok "running\n".toList
  readToString _ := .ok <| "/dev/vda / ext4 rw 0 0\n/dev/vda /workspace ext4 rw 0 0\nhost /mnt 9p rw 0 0\n".toList ++
    "/dev/vdb /opt ext4 ro,relatime 0 0\n".toList
  statvfs _ := .ok ⟨4096, 4096, 1000, 400⟩
  metadata path := .ok ⟨if path = "/mnt".toList then 40 else 64512, 0⟩
  readDir _ := .error ⟨"No such file or directory (os error 2)"⟩

theorem disks_first_of_each_bound :
    ∃ reported, disks bound = .ok reported ∧ (reported.map (·.mountPoint)).Nodup ∧
      ∃ disk ∈ reported, deviceAt bound disk.mountPoint = 64512 := by
  obtain ⟨reported, found, -, points, -, -, complete⟩ := disks_first_of_each bound _ (fun _ _ _ => ⟨_, rfl⟩) rfl
  have reportable : eligible bound "/dev/vda /workspace ext4 rw 0 0".toList =
      some ⟨"/workspace".toList, ⟨2457600, 4096000⟩⟩ := by decide +kernel
  obtain ⟨target, stood, disk, member, same, -⟩ := complete _ (by decide +kernel) _ reportable
  refine ⟨reported, found, points, disk, member, same.trans ?_⟩
  cases stood
  decide +kernel

end MinimalVm.Liveness
