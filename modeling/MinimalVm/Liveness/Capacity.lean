import MinimalVm.Liveness.Stacking
import MinimalVm.Semantics.Overflow

/-! Byte counts against what they count.

The kernel counts memory in kilobytes and a filesystem in blocks. Both are
multiplied without a check, so that a count that is too large wraps in a release
build and panics in a debug build.
-/

set_option autoImplicit false

namespace MinimalVm.Liveness

open MinimalVm.Semantics MinimalVm.Text

/-! ## Memory and swap -/

def kilobytes (field : String) (line : Text) : Option UInt64 :=
  (field.toList.isPrefixOf? line).bind fun rest => parseU64 (trim (trimEndMatches " kB".toList rest))

/-- The first line of a field with a number has this one. -/
def FirstOf (meminfo : Text) (field : String) (value : UInt64) : Prop :=
  ∃ first line rest, lines meminfo = first ++ line :: rest ∧ kilobytes field line = some value ∧
    ∀ earlier ∈ first, kilobytes field earlier = none

theorem meminfoField_ok {meminfo : Text} {field : String} {value : UInt64} :
    meminfoField meminfo field = .ok value ↔ FirstOf meminfo field value := by
  have found : (lines meminfo).findSome? (kilobytes field) = some value ↔ FirstOf meminfo field value :=
    List.findSome?_eq_some_iff
  have kept : (fun line => (field.toList.isPrefixOf? line).bind fun rest =>
    parseU64 (trim (trimEndMatches " kB".toList rest))) = kilobytes field := rfl
  rw [← found, meminfoField, kept]
  cases (lines meminfo).findSome? (kilobytes field) with
  | none => exact iff_of_false nofun nofun
  | some other => rw [Except.ok.injEq, Option.some.injEq]

def meminfoUsageDebug (guest : Guest) (total available : String) : Option (Except MetricsError Usage) :=
  match guest.read "/proc/meminfo" with
  | .error error => some (.error error)
  | .ok meminfo =>
    match meminfoField meminfo total with
    | .error error => some (.error error)
    | .ok totalKb =>
      match meminfoField meminfo available with
      | .error error => some (.error error)
      | .ok availableKb =>
        match mul? (saturatingSub totalKb availableKb) 1024 with
        | none => none
        | some used =>
          match mul? totalKb 1024 with
          | none => none
          | some total => some (.ok { used, total })

def memoryDebug (guest : Guest) : Option (Except MetricsError Usage) :=
  meminfoUsageDebug guest "MemTotal:" "MemAvailable:"

def swapDebug (guest : Guest) : Option (Except MetricsError Usage) := meminfoUsageDebug guest "SwapTotal:" "SwapFree:"

/-- Usage that says in bytes what two fields say in kilobytes. -/
structure Exact (meminfo : Text) (total available : String) (usage : Usage) : Prop where
  fields : ∃ totalKb availableKb, FirstOf meminfo total totalKb ∧ FirstOf meminfo available availableKb ∧
    usage.total.toNat = 1024 * totalKb.toNat ∧ usage.used.toNat = 1024 * (totalKb.toNat - availableKb.toNat)
  within : usage.used ≤ usage.total

section
variable {guest : Guest} {meminfo : Text} {total available : String} {usage : Usage}

theorem FirstOf.unique {field : String} {a b : UInt64} (one : FirstOf meminfo field a) (two : FirstOf meminfo field b) :
    a = b :=
  Except.ok.inj ((meminfoField_ok.mpr one).symm.trans (meminfoField_ok.mpr two))

theorem meminfoUsage_ok (read : guest.readToString "/proc/meminfo" = .ok meminfo)
    (ok : meminfoUsage guest total available = .ok usage) :
    ∃ totalKb availableKb, FirstOf meminfo total totalKb ∧ FirstOf meminfo available availableKb ∧
      usage = ⟨saturatingSub totalKb availableKb * 1024, totalKb * 1024⟩ := by
  unfold meminfoUsage Guest.read at ok
  rw [read] at ok
  dsimp only at ok
  cases first : meminfoField meminfo total with
  | error error => rw [first] at ok; cases ok
  | ok totalKb =>
    cases second : meminfoField meminfo available with
    | error error => rw [first, second] at ok; cases ok
    | ok availableKb =>
      rw [first, second] at ok
      cases ok
      exact ⟨totalKb, availableKb, meminfoField_ok.mp first, meminfoField_ok.mp second, rfl⟩

theorem scaled_fits {kb : UInt64} : kb.toNat * (1024 : UInt64).toNat < UInt64.size ↔ kb.toNat < 2 ^ 54 := by
  have thousand : (1024 : UInt64).toNat = 1024 := rfl
  have size : UInt64.size = 2 ^ 54 * 1024 := rfl
  rw [thousand, size]
  omega

theorem meminfoUsage_exact (read : guest.readToString "/proc/meminfo" = .ok meminfo)
    (ok : meminfoUsage guest total available = .ok usage) :
    Exact meminfo total available usage ∧ meminfoUsageDebug guest total available = some (.ok usage) ↔
      ∀ totalKb, FirstOf meminfo total totalKb → totalKb.toNat < 2 ^ 54 := by
  obtain ⟨totalKb, availableKb, first, second, rfl⟩ := meminfoUsage_ok read ok
  constructor
  · rintro ⟨exact, -⟩ other isFirst
    obtain ⟨kb, -, again, -, scaled, -⟩ := exact.fields
    cases first.unique again
    cases first.unique isFirst
    rw [← scaled_fits, Nat.mul_comm]
    exact scaled ▸ (totalKb * 1024).toNat_lt_size
  · intro small
    have fits := scaled_fits.mpr (small totalKb first)
    have less := saturatingSub_toNat totalKb availableKb
    have fitsUsed : (saturatingSub totalKb availableKb).toNat * (1024 : UInt64).toNat < UInt64.size := by
      have smaller := small totalKb first
      exact scaled_fits.mpr (by omega)
    have usedIs : (saturatingSub totalKb availableKb * 1024).toNat = 1024 * (totalKb.toNat - availableKb.toNat) := by
      rw [toNat_mul_of_fits fitsUsed, less]
      exact Nat.mul_comm _ 1024
    have totalIs : (totalKb * 1024).toNat = 1024 * totalKb.toNat := by
      rw [toNat_mul_of_fits fits]
      exact Nat.mul_comm _ 1024
    constructor
    · refine ⟨⟨totalKb, availableKb, first, second, totalIs, usedIs⟩, ?_⟩
      rw [UInt64.le_iff_toNat_le, usedIs, totalIs]
      omega
    · unfold meminfoUsageDebug Guest.read
      simp only [read, meminfoField_ok.mpr first, meminfoField_ok.mpr second, mul?_of_fits fits, mul?_of_fits fitsUsed]

end

/-- What is reported of memory and of swap is what the kernel says of it, just if
the total that the kernel gives is less than 2^54 kilobytes. -/
theorem usage_exact (guest : Guest) (meminfo : Text) (read : guest.readToString "/proc/meminfo" = .ok meminfo) :
    (∀ usage, memory guest = .ok usage →
      (Exact meminfo "MemTotal:" "MemAvailable:" usage ∧ memoryDebug guest = some (.ok usage) ↔
        ∀ totalKb, FirstOf meminfo "MemTotal:" totalKb → totalKb.toNat < 2 ^ 54)) ∧
      ∀ usage, swap guest = .ok usage →
        (Exact meminfo "SwapTotal:" "SwapFree:" usage ∧ swapDebug guest = some (.ok usage) ↔
          ∀ totalKb, FirstOf meminfo "SwapTotal:" totalKb → totalKb.toNat < 2 ^ 54) :=
  ⟨fun _ => meminfoUsage_exact read, fun _ => meminfoUsage_exact read⟩

def remembering (meminfo : Text) : Guest := { bound with readToString := fun _ => .ok meminfo }

def plenty : Text := "MemTotal: 400 kB\nMemAvailable: 100 kB\n".toList

theorem usage_exact_plenty : Exact plenty "MemTotal:" "MemAvailable:" ⟨307200, 409600⟩ := by
  have computed : (memory (remembering plenty)).toOption = some ⟨307200, 409600⟩ := by decide +kernel
  have field : (meminfoField plenty "MemTotal:").toOption = some 400 := by decide +kernel
  refine (((usage_exact (remembering plenty) plenty rfl).1 _ (ok_of_toOption computed)).mpr fun totalKb isFirst => ?_).1
  cases isFirst.unique (meminfoField_ok.mp (ok_of_toOption field))
  decide

def excessive : Text := "MemTotal: 18014398509481984 kB\nMemAvailable: 1 kB\n".toList

/-- Of 2^54 kilobytes nothing is left, and more than that is in use. -/
theorem usage_wraps :
    memory (remembering excessive) = .ok ⟨18446744073709550592, 0⟩ ∧
      (memoryDebug (remembering excessive)).isNone = true ∧
      ¬ Exact excessive "MemTotal:" "MemAvailable:" ⟨18446744073709550592, 0⟩ := by
  have computed : (memory (remembering excessive)).toOption = some ⟨18446744073709550592, 0⟩ := by decide +kernel
  refine ⟨ok_of_toOption computed, by decide +kernel, fun exact => ?_⟩
  exact absurd exact.within (by decide)

/-! ## Disks -/

def diskOfDebug (guest : Guest) (path : Text) : Option (Except DiskError Usage) :=
  if Char.ofNat 0 ∈ path then some (.error .nul)
  else
    match guest.statvfs path with
    | .error cause => some (.error (.statvfs path cause))
    | .ok stat =>
      let block := max stat.frsize stat.bsize
      match mul? (saturatingSub stat.blocks stat.bfree) block with
      | none => none
      | some used =>
        match mul? stat.blocks block with
        | none => none
        | some total => some (.ok { used, total })

namespace StatVfs

/-- The product that the total is computed by. -/
def product (this : StatVfs) : Nat := this.blocks.toNat * max this.frsize.toNat this.bsize.toNat

def usage (this : StatVfs) : Usage :=
  ⟨saturatingSub this.blocks this.bfree * max this.frsize this.bsize, this.blocks * max this.frsize this.bsize⟩

/-- The fragments are the larger unit, and all of them together fit. -/
def Measurable (this : StatVfs) : Prop :=
  this.bsize ≤ this.frsize ∧ this.blocks.toNat * this.frsize.toNat < UInt64.size

variable {stat : StatVfs}

theorem max_toNat (a b : UInt64) : (max a b).toNat = max a.toNat b.toNat := by
  rw [UInt64.max_def]
  split
  · exact (Nat.max_eq_right ‹a ≤ b›).symm
  · exact (Nat.max_eq_left (Nat.le_of_lt (UInt64.not_le.mp ‹_›))).symm

theorem usage_total : stat.usage.total.toNat = stat.product % UInt64.size := by
  rw [usage, product, ← max_toNat]
  exact UInt64.toNat_mul _ _

theorem usage_pos : 0 < stat.usage.total ↔ ¬ UInt64.size ∣ stat.product := by
  rw [UInt64.lt_iff_toNat_lt, usage_total, Nat.dvd_iff_mod_eq_zero]
  exact Nat.pos_iff_ne_zero

end StatVfs

structure Counted (stat : StatVfs) (usage : Usage) : Prop where
  total : usage.total.toNat = stat.blocks.toNat * stat.frsize.toNat
  used : usage.used.toNat = (stat.blocks.toNat - stat.bfree.toNat) * stat.frsize.toNat
  some : 0 < usage.total
  within : usage.used ≤ usage.total

/-- A usage that is reported is right in either build just if the filesystem is
measurable. -/
theorem counted_iff {stat : StatVfs} (blocks : ¬ UInt64.size ∣ stat.product) :
    Counted stat stat.usage ∧ stat.product < UInt64.size ↔ stat.Measurable := by
  constructor
  · rintro ⟨counted, fits⟩
    have total := counted.total
    rw [StatVfs.usage_total, Nat.mod_eq_of_lt fits, StatVfs.product] at total
    have positive : 0 < stat.blocks.toNat := by
      apply Nat.pos_of_ne_zero
      intro none
      exact blocks (by rw [StatVfs.product, none, Nat.zero_mul]; exact Nat.dvd_zero _)
    -- There are blocks, so that the units are the same if the products are.
    have larger := Nat.eq_of_mul_eq_mul_left positive total
    rw [StatVfs.product, larger] at fits
    have least := Nat.le_max_right stat.frsize.toNat stat.bsize.toNat
    rw [larger] at least
    exact ⟨least, fits⟩
  · rintro ⟨larger, fits⟩
    have most : max stat.frsize.toNat stat.bsize.toNat = stat.frsize.toNat := Nat.max_eq_left larger
    have product : stat.product = stat.blocks.toNat * stat.frsize.toNat := by rw [StatVfs.product, most]
    have total : stat.usage.total.toNat = stat.blocks.toNat * stat.frsize.toNat := by
      rw [StatVfs.usage_total, product, Nat.mod_eq_of_lt fits]
    have fewer : (stat.blocks.toNat - stat.bfree.toNat) * stat.frsize.toNat ≤
        stat.blocks.toNat * stat.frsize.toNat := Nat.mul_le_mul_right _ (Nat.sub_le _ _)
    have used : stat.usage.used.toNat = (stat.blocks.toNat - stat.bfree.toNat) * stat.frsize.toNat := by
      rw [StatVfs.usage, UInt64.toNat_mul, StatVfs.max_toNat, most, saturatingSub_toNat]
      exact Nat.mod_eq_of_lt (Nat.lt_of_le_of_lt fewer fits)
    refine ⟨⟨total, used, StatVfs.usage_pos.mpr blocks, ?_⟩, product ▸ fits⟩
    rw [UInt64.le_iff_toNat_le, used, total]
    exact fewer

/-- The mount point that the guest is asked about for a line. -/
def candidate (line : Text) : Option Text :=
  match mountFields line with
  | none => none
  | some mount =>
    let mountPoint := unescapeMountPoint mount.mountPoint
    if mount.isShared || mount.isReadOnly || isRuntimeMount mountPoint then none else some mountPoint

theorem eligible_eq (guest : Guest) (line : Text) : eligible guest line = (candidate line).bind (measure guest) := by
  unfold eligible candidate
  cases mountFields line with
  | none => rfl
  | some mount =>
    dsimp only
    split
    · rfl
    · rfl

structure Asked (guest : Guest) (line mountPoint : Text) (stat : StatVfs) : Prop where
  point : candidate line = some mountPoint
  whole : Char.ofNat 0 ∉ mountPoint
  answer : guest.statvfs mountPoint = .ok stat

section
variable {guest : Guest} {line mountPoint : Text} {stat : StatVfs}

theorem Asked.diskOf (asked : Asked guest line mountPoint stat) : diskOf guest mountPoint = .ok stat.usage := by
  unfold Liveness.diskOf
  rw [if_neg asked.whole, asked.answer]
  rfl

theorem Asked.diskOfDebug (asked : Asked guest line mountPoint stat) :
    diskOfDebug guest mountPoint = some (.ok stat.usage) ↔ stat.product < UInt64.size := by
  have block : stat.product = stat.blocks.toNat * (max stat.frsize stat.bsize).toNat := by
    rw [StatVfs.product, StatVfs.max_toNat]
  unfold Liveness.diskOfDebug
  rw [if_neg asked.whole, asked.answer, block]
  dsimp only
  -- The product of the blocks in use is the smaller one, so that the total decides.
  by_cases fits : stat.blocks.toNat * (max stat.frsize stat.bsize).toNat < UInt64.size
  · have fewer : (saturatingSub stat.blocks stat.bfree).toNat * (max stat.frsize stat.bsize).toNat < UInt64.size := by
      rw [saturatingSub_toNat]
      exact Nat.lt_of_le_of_lt (Nat.mul_le_mul_right _ (Nat.sub_le _ _)) fits
    rw [mul?_of_fits fewer, mul?_of_fits fits]
    exact iff_of_true rfl fits
  · rw [mul?_eq_none.mpr (Nat.le_of_not_lt fits)]
    refine iff_of_false ?_ fits
    split
    · nofun
    · nofun

theorem eligible_asked {sample : Sample} :
    eligible guest line = some sample ↔
      ∃ stat, Asked guest line sample.mountPoint stat ∧ ¬ UInt64.size ∣ stat.product ∧ sample.usage = stat.usage := by
  rw [eligible_eq]
  constructor
  · intro reportable
    obtain ⟨point, isCandidate, measured⟩ := Option.bind_eq_some_iff.mp reportable
    cases measure_mountPoint measured
    obtain ⟨stat, answer⟩ := measure_statvfs measured
    -- A path with a NUL is an error before the guest is asked.
    have whole : Char.ofNat 0 ∉ sample.mountPoint := by
      intro nul
      rw [measure, Liveness.diskOf, if_pos nul] at measured
      cases measured
    have asked : Asked guest line sample.mountPoint stat := ⟨isCandidate, whole, answer⟩
    refine ⟨stat, asked, ?_⟩
    rw [measure, asked.diskOf] at measured
    dsimp only at measured
    split at measured
    · rename_i blocks
      exact ⟨StatVfs.usage_pos.mp blocks, congrArg Sample.usage (Option.some.inj measured).symm⟩
    · cases measured
  · rintro ⟨stat, asked, blocks, usage⟩
    refine Option.bind_eq_some_iff.mpr ⟨sample.mountPoint, asked.point, ?_⟩
    rw [measure_some asked.diskOf (StatVfs.usage_pos.mpr blocks), ← usage]

end

/-- A line that is reported, being the first of its device that can be, is
measurable, and a line with any fragments has no number of bytes that wraps
around to nothing. -/
def Fragmented (guest : Guest) (mounts : Text) : Prop :=
  (∀ first line rest mountPoint stat, lines mounts = first ++ line :: rest → Asked guest line mountPoint stat →
    ¬ UInt64.size ∣ stat.product →
    (∀ earlier ∈ first, ∀ point other, Asked guest earlier point other → ¬ UInt64.size ∣ other.product →
      deviceAt guest point ≠ deviceAt guest mountPoint) → stat.Measurable) ∧
    ∀ line ∈ lines mounts, ∀ mountPoint stat, Asked guest line mountPoint stat → 0 < stat.blocks → 0 < stat.frsize →
      ¬ UInt64.size ∣ stat.product

/-- Every disk of the report is counted in its fragments, and no disk with
fragments is left out for having none, just if the fragments are the larger unit
wherever a line is reported, and no product wraps where it matters. -/
theorem disks_exact (guest : Guest) (mounts : Text) (reported : List FileSystemUsage)
    (read : guest.readToString "/proc/mounts" = .ok mounts) (found : disks guest = .ok reported) :
    ((∀ disk ∈ reported, ∃ stat, guest.statvfs disk.mountPoint = .ok stat ∧ Counted stat disk.usage ∧
        diskOfDebug guest disk.mountPoint = some (.ok disk.usage)) ∧
      ∀ line ∈ lines mounts, ∀ mountPoint stat, Asked guest line mountPoint stat → 0 < stat.blocks → 0 < stat.frsize →
        ∃ usage, diskOf guest mountPoint = .ok usage ∧ 0 < usage.total) ↔ Fragmented guest mounts := by
  cases found.symm.trans (disks_eq read)
  refine and_congr ?_ ?_
  · constructor
    · intro exactly first line rest mountPoint stat split asked blocks earlier
      -- The line is the first of its device, so that its disk is in the report.
      have kept : ⟨mountPoint, stat.usage⟩ ∈ firsts (Sample.device guest) (samples guest mounts) := by
        refine mem_firsts_filterMap.mpr ⟨first, line, rest, split, eligible_asked.mpr ⟨stat, asked, blocks, rfl⟩, ?_⟩
        intro before member other reportable
        obtain ⟨stats, askedOther, blocksOther, -⟩ := eligible_asked.mp reportable
        exact earlier before member _ stats askedOther blocksOther
      obtain ⟨other, answer, counted, fits⟩ := exactly _ (List.mem_map_of_mem kept)
      cases asked.answer.symm.trans answer
      exact (counted_iff blocks).mp ⟨counted, asked.diskOfDebug.mp fits⟩
    · intro measurable disk member
      obtain ⟨sample, kept, rfl⟩ := List.mem_map.mp member
      obtain ⟨first, line, rest, split, reportable, earlier⟩ := mem_firsts_filterMap.mp kept
      obtain ⟨stat, asked, blocks, usage⟩ := eligible_asked.mp reportable
      have fine := measurable first line rest _ stat split asked blocks fun before inside point other askedOther some =>
        earlier before inside ⟨point, other.usage⟩ (eligible_asked.mpr ⟨other, askedOther, some, rfl⟩)
      obtain ⟨counted, fits⟩ := (counted_iff blocks).mpr fine
      refine ⟨stat, asked.answer, ?_⟩
      dsimp only [Sample.report]
      rw [usage]
      exact ⟨counted, asked.diskOfDebug.mpr fits⟩
  · refine forall₂_congr fun line _ => forall₂_congr fun mountPoint stat => forall_congr' fun asked => ?_
    rw [asked.diskOf]
    refine forall₂_congr fun _ _ => ?_
    rw [← StatVfs.usage_pos]
    constructor
    · rintro ⟨usage, same, blocks⟩
      cases same
      exact blocks
    · exact fun blocks => ⟨_, rfl, blocks⟩

theorem disks_exact_bound :
    ∃ reported, disks bound = .ok reported ∧ ∀ disk ∈ reported, Counted ⟨4096, 4096, 1000, 400⟩ disk.usage := by
  have same {line mountPoint : Text} {stat : StatVfs} (asked : Asked bound line mountPoint stat) :
      stat = ⟨4096, 4096, 1000, 400⟩ := by
    cases asked.answer
    rfl
  refine ⟨_, disks_eq rfl, fun disk member => ?_⟩
  have exactly := ((disks_exact bound _ _ rfl (disks_eq rfl)).mpr ⟨?_, ?_⟩).1
  · obtain ⟨stat, answer, counted, -⟩ := exactly disk member
    cases answer
    exact counted
  · intro first line rest mountPoint stat split asked blocks earlier
    rw [same asked]
    exact ⟨by decide, by decide⟩
  · intro line member mountPoint stat asked blocks fragments
    rw [same asked]
    decide

def coarse : Guest := { bound with statvfs := fun _ => .ok ⟨4096, 65536, 1000, 400⟩ }

/-- A disk of a thousand fragments is reported as a thousand of the blocks. -/
theorem disks_oversized :
    disks coarse = .ok [⟨"/".toList, none, ⟨39321600, 65536000⟩⟩] ∧
      coarse.statvfs "/".toList = .ok ⟨4096, 65536, 1000, 400⟩ ∧ ¬ Counted ⟨4096, 65536, 1000, 400⟩ ⟨39321600, 65536000⟩ := by
  have computed : (disks coarse).toOption = some [⟨"/".toList, none, ⟨39321600, 65536000⟩⟩] := by decide +kernel
  exact ⟨ok_of_toOption computed, rfl, fun counted => absurd counted.total (by decide)⟩

end MinimalVm.Liveness
