import MinimalVm.Liveness.Metrics
import Mathlib.Algebra.GroupWithZero.Nat

/-! The mounts of the guest and the disks they stand for.

A line of `/proc/mounts` is judged by its own fields, and what it is measured by
is whatever the guest has at its mount point. One loop carries the mount points
and the devices it has seen.
-/

set_option autoImplicit false

namespace MinimalVm.Liveness

open MinimalVm.Semantics MinimalVm.Text

/-! ## Mount points -/

def byteLength (text : Text) : Nat := (text.map Char.utf8Size).sum

def replacementCharacter : Char := Char.ofNat 0xFFFD

def charFromU32 (code : Nat) : Char := if code.isValidChar then Char.ofNat code else replacementCharacter

/-- What an escape decodes to, given what follows its backslash. -/
def decodeEscape (rest : Text) : Option Char :=
  match fromStrRadix 8 UInt32.size rest with
  | some byte => if byteLength rest = 3 then some (charFromU32 byte) else none
  | none => none

def unescapeMountPoint : Text → Text
  | [] => []
  | c :: chars =>
    if c = '\\' then
      -- Three characters are taken at once, whatever they turn out to be.
      match decodeEscape (chars.take 3) with
      | some decoded => decoded :: unescapeMountPoint (chars.drop 3)
      | none => '\\' :: chars.take 3 ++ unescapeMountPoint (chars.drop 3)
    else c :: unescapeMountPoint chars
termination_by field => field.length
decreasing_by
  all_goals simp only [List.length_cons, List.length_drop]
  all_goals omega

def runtimeMounts : List Text := ["/run".toList, "/dev".toList, "/nix".toList]

def isRuntimeMount (mountPoint : Text) : Bool :=
  runtimeMounts.any fun root => mountPoint == root || (root ++ ['/']).isPrefixOf mountPoint

/-! ## Measuring a mount point -/

inductive DiskError where
  | nul
  | statvfs (path : Text) (cause : IoError)

def DiskError.message : DiskError → String
  | nul => "mount point contains a NUL byte"
  | statvfs path cause => "statvfs(" ++ String.ofList path ++ ") failed: " ++ cause.text

def diskOf (guest : Guest) (path : Text) : Except DiskError Usage :=
  if Char.ofNat 0 ∈ path then .error .nul
  else
    match guest.statvfs path with
    | .error cause => .error (.statvfs path cause)
    | .ok stat =>
      let block := max stat.frsize stat.bsize
      .ok { used := saturatingSub stat.blocks stat.bfree * block, total := stat.blocks * block }

def deviceAt (guest : Guest) (path : Text) : UInt64 :=
  match guest.metadata path with
  | .ok target => target.dev
  | .error _ => .ofNat (UInt64.size - 1)

def labelIn (guest : Guest) (device : UInt64) (dir : String) : Option Text :=
  match guest.readDir dir with
  | .error _ => none
  | .ok entries =>
    (entries.filterMap Except.toOption).findSome? fun entry =>
      match entry.target with
      | .error _ => none
      | .ok target => if target.dev ≠ device then none else entry.fileName

def deviceLabel (guest : Guest) (device : UInt64) : Option Text :=
  (labelIn guest device "/dev/disk/by-label").or (labelIn guest device "/dev/disk/by-id")

/-! ## The loop over the mounts -/

structure Mount where
  device : Text
  mountPoint : Text
  fstype : Text
  options : Text
  deriving DecidableEq, Repr

/-- The fields of a line as they stand there. -/
def mountFields (line : Text) : Option Mount :=
  match splitWhitespace line with
  | device :: mountPoint :: fstype :: options :: _ => some ⟨device, mountPoint, fstype, options⟩
  | _ => none

namespace Mount

def isShared (this : Mount) : Bool := "9p".toList.isPrefixOf this.fstype

def isReadOnly (this : Mount) : Bool := (this.options.splitOn ',').any (· == "ro".toList)

end Mount

/-- What the loop has seen and what it has found. -/
structure Found where
  seen : List Text
  devices : List UInt64
  disks : List FileSystemUsage

def visit (guest : Guest) (found : Found) (line : Text) : Found :=
  match mountFields line with
  | none => found
  | some mount =>
    if mount.isShared then found
    else if mount.isReadOnly then found
    else
      let mountPoint := unescapeMountPoint mount.mountPoint
      if isRuntimeMount mountPoint then found
      else if found.seen.contains mountPoint then found
      else
        let found := { found with seen := found.seen ++ [mountPoint] }
        match diskOf guest mountPoint with
        | .error _ => found
        | .ok usage =>
          if 0 < usage.total then
            let device := deviceAt guest mountPoint
            if found.devices.contains device then found
            else
              { found with
                devices := found.devices ++ [device]
                disks := found.disks ++ [⟨mountPoint, deviceLabel guest device, usage⟩] }
          else found

def disks (guest : Guest) : Except MetricsError (List FileSystemUsage) :=
  match guest.read "/proc/mounts" with
  | .error error => .error error
  | .ok mounts => .ok ((lines mounts).foldl (visit guest) ⟨[], [], []⟩).disks

end MinimalVm.Liveness
