import MinimalVm.Semantics.Polling

/-! The handle through which the agent signals, awaits and kills its child.

The child stands behind a lock that a pending `wait` holds. Once a `wait` has
completed its result stands there instead, and nothing is signalled any more.
What the operating system answers to a poll of the child is a parameter.
-/

set_option autoImplicit false

namespace MinimalVm.Agent

open MinimalVm.Semantics

/-- A shared error, by the text it displays. -/
structure ArcErr where
  text : String
  deriving DecidableEq, Repr

/-- A spawned child, which has an id until it is reaped. -/
structure Child where
  id : Option UInt32
  deriving DecidableEq, Repr

structure Process where
  pid : UInt32
  proc : Child ⊕ Except ArcErr Int32
  locked : Bool

structure Signal where
  pid : Int32
  number : Int32
  deriving DecidableEq

def sigkill : Int32 := 9

/-- The signals of the platform are numbered from 1 to 31. -/
def signalNumber (signal : Int32) : Int32 :=
  if 1 ≤ signal ∧ signal ≤ 31 then signal else sigkill

def signalPid (pid : UInt32) (signal : Int32) : Signal := ⟨pid.toInt32, signalNumber signal⟩

namespace Process

def spawned (pid : UInt32) : Process := ⟨pid, .inl ⟨some pid⟩, false⟩

/-- The signals sent to relay a signal to the child. -/
def signal (this : Process) (signal : Int32) : List Signal :=
  -- Whoever holds the lock awaits the child, which is probably running.
  if this.locked then [signalPid this.pid signal]
  else
    match this.proc with
    | .inr _ => []
    | .inl ⟨some pid⟩ => [signalPid pid signal]
    | .inl ⟨none⟩ => []

def pollWait (this : Process) (answer : Poll (Except IoError Int32)) : Poll (Except ArcErr Int32) × Process :=
  match this.proc, answer with
  -- A child is reaped once; its result is given out ever after.
  | .inr result, _ => (.ready result, { this with locked := false })
  | .inl _, .pending => (.pending, { this with locked := true })
  | .inl _, .ready (.ok status) => (.ready (.ok status), ⟨this.pid, .inr (.ok status), false⟩)
  | .inl _, .ready (.error _) =>
    let failed := ⟨"Failed to wait for child process"⟩
    (.ready (.error failed), ⟨this.pid, .inr (.error failed), false⟩)

/-- Dropping a pending `wait` gives the lock back. -/
def dropWait (this : Process) : Process := { this with locked := false }

/-- The signals sent when the handle is dropped, and what it leaves behind. -/
def drop (this : Process) : List Signal × Process :=
  if this.locked then ([signalPid this.pid sigkill], this)
  else
    match this.proc with
    | .inl child =>
      let killed := ⟨"Process killed due to Process handle being dropped"⟩
      (child.id.toList.map (signalPid · sigkill), { this with proc := .inr (.error killed) })
    | .inr _ => ([], this)

/-- The handle of a child whose end has not been observed. -/
def Unawaited (this : Process) (pid : UInt32) : Prop := this.pid = pid ∧ this.proc = .inl ⟨some pid⟩

theorem unawaited_spawned (pid : UInt32) : (spawned pid).Unawaited pid := ⟨rfl, rfl⟩

theorem unawaited_dropWait {this : Process} {pid : UInt32} (unawaited : this.Unawaited pid) :
    this.dropWait.Unawaited pid :=
  unawaited

theorem Unawaited.form {this : Process} {pid : UInt32} (unawaited : this.Unawaited pid) :
    ∃ locked, this = ⟨pid, .inl ⟨some pid⟩, locked⟩ := by
  obtain ⟨handle, child, locked⟩ := this
  have own : handle = pid := unawaited.1
  have there : child = .inl ⟨some pid⟩ := unawaited.2
  exact ⟨locked, by rw [own, there]⟩

theorem pollWait_pending {this that : Process} {pid : UInt32} {answer : Poll (Except IoError Int32)}
    (polled : this.pollWait answer = (.pending, that)) (unawaited : this.Unawaited pid) : that.Unawaited pid := by
  obtain ⟨same, child⟩ := unawaited
  simp only [pollWait, child] at polled
  rcases answer with _ | _ | _
  · cases polled
    exact ⟨same, rfl⟩
  · cases polled
  · cases polled

theorem pollWait_failed {this that : Process} {pid : UInt32} {answer : Poll (Except IoError Int32)}
    {error : ArcErr} (polled : this.pollWait answer = (.ready (.error error), that))
    (unawaited : this.Unawaited pid) : ∃ cause, answer = .ready (.error cause) := by
  simp only [pollWait, unawaited.2] at polled
  rcases answer with _ | cause | _
  · cases polled
  · exact ⟨cause, rfl⟩
  · cases polled

theorem pollWait_exited {this that : Process} {pid : UInt32} {answer : Poll (Except IoError Int32)}
    {status : Int32} (polled : this.pollWait answer = (.ready (.ok status), that))
    (unawaited : this.Unawaited pid) : answer = .ready (.ok status) := by
  simp only [pollWait, unawaited.2] at polled
  rcases answer with _ | _ | _
  · cases polled
  · cases polled
  · cases polled
    rfl

/-- A dropped handle kills a child whose end was not observed, locked or not. -/
theorem drop_kills {this : Process} {pid : UInt32} (unawaited : this.Unawaited pid) :
    this.drop.1 = [signalPid pid sigkill] := by
  obtain ⟨locked, rfl⟩ := unawaited.form
  cases locked <;> rfl

end Process
end MinimalVm.Agent
