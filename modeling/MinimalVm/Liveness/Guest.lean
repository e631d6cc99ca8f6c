import MinimalVm.Semantics.Polling
import MinimalVm.Text.Words

/-! What a status report says, and the guest it is read from.

The guest is whatever the system answers to one collector: files, the mounts
behind paths, and directories. A text is the list of its characters.
-/

set_option autoImplicit false

namespace MinimalVm.Liveness

open MinimalVm.Semantics MinimalVm.Text

abbrev Text := List Char

/-! ## Reports -/

inductive SystemdState where
  | initializing
  | starting
  | running
  | degraded
  | maintenance
  | stopping
  | unknown
  deriving DecidableEq, Repr

/-- The state that the output of `systemctl is-system-running` names. -/
def SystemdState.parse (output : Text) : SystemdState :=
  match String.ofList (trim output) with
  | "initializing" => .initializing
  | "starting" => .starting
  | "running" => .running
  | "degraded" => .degraded
  | "maintenance" => .maintenance
  | "stopping" => .stopping
  | _ => .unknown

structure Usage where
  used : UInt64
  total : UInt64
  deriving DecidableEq, Repr

structure FileSystemUsage where
  mountPoint : Text
  label : Option Text
  usage : Usage
  deriving DecidableEq, Repr

structure Status where
  systemd : SystemdState
  cpuPercent : Rat
  memory : Usage
  swap : Usage
  disks : List FileSystemUsage
  deriving DecidableEq, Repr

/-! ## The guest -/

/-- The fields of a `statvfs` that are looked at. -/
structure StatVfs where
  frsize : UInt64
  bsize : UInt64
  blocks : UInt64
  bfree : UInt64
  deriving DecidableEq, Repr

/-- The device that holds a file, and the device that a node denotes. -/
structure Metadata where
  dev : UInt64
  rdev : UInt64
  deriving DecidableEq, Repr

/-- An entry of a directory: its name, where it is a text, and what its path
leads to. -/
structure DirEntry where
  fileName : Option Text
  target : Except IoError Metadata

structure Guest where
  systemctl : Except IoError Text
  readToString : String → Except IoError Text
  statvfs : Text → Except IoError StatVfs
  metadata : Text → Except IoError Metadata
  readDir : String → Except IoError (List (Except IoError DirEntry))

inductive MetricsError where
  | reading (path : String) (cause : IoError)
  | noCpuLine
  | noField (field : String)
  deriving DecidableEq, Repr

def MetricsError.message : MetricsError → String
  | reading path _ => "reading " ++ path
  | noCpuLine => "/proc/stat has no aggregate cpu line"
  | noField field => "/proc/meminfo has no " ++ field

namespace Guest

def read (this : Guest) (path : String) : Except MetricsError Text :=
  match this.readToString path with
  | .error cause => .error (.reading path cause)
  | .ok text => .ok text

def systemdState (this : Guest) : SystemdState :=
  match this.systemctl with
  | .ok output => .parse output
  | .error _ => .unknown

end Guest
end MinimalVm.Liveness
