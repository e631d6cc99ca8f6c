import MinimalVm.Agent.Process
import MinimalVm.Semantics.Execution

/-! A handle in use: signals, any number of `wait`s, and the drop.

The lock is fair. A `wait` that finds it taken queues up, and whoever lets go of
it hands it to the first in the queue, so it is free only if nobody wants it.
The handle may be dropped at any point, with a `wait` that was never dropped
still holding the lock.
-/

set_option autoImplicit false

namespace MinimalVm.Agent

open MinimalVm.Semantics

def Process.reaps (this : Process) (answer : Poll (Except IoError Int32)) : Bool :=
  match this.proc, answer with
  | .inl _, .ready (.ok _) => true
  | .inl _, .pending | .inl _, .ready (.error _) | .inr _, _ => false

/-- A handle, the `wait`s that want its lock, the first of which holds it, and
what has become of the child. -/
structure Handle where
  pid : UInt32
  proc : Child ⊕ Except ArcErr Int32
  waits : List Nat
  reaped : Bool
  sent : List Signal
  results : List (Except ArcErr Int32)

inductive HandleStep where
  | signal (signal : Int32)
  | poll (wait : Nat) (answer : Poll (Except IoError Int32))
  | dropWait (wait : Nat)

namespace Handle

def spawned (pid : UInt32) : Handle := ⟨pid, (Process.spawned pid).proc, [], false, [], []⟩

def process (this : Handle) : Process := ⟨this.pid, this.proc, !this.waits.isEmpty⟩

/-- The lock is free or this `wait` holds it. -/
def serves (this : Handle) (wait : Nat) : Bool :=
  match this.waits with
  | [] => true
  | holder :: _ => holder == wait

def pollWait (this : Handle) (wait : Nat) (answer : Poll (Except IoError Int32)) : Handle :=
  if this.serves wait then
    let polled := this.process.pollWait answer
    match polled.1 with
    | .pending => { this with proc := polled.2.proc, waits := wait :: this.waits.tail }
    | .ready result =>
      { this with
        proc := polled.2.proc
        waits := this.waits.tail
        reaped := this.reaped || this.process.reaps answer
        results := this.results ++ [result] }
  else if wait ∈ this.waits then this
  else { this with waits := this.waits ++ [wait] }

def step (this : Handle) : HandleStep → Option Handle
  | .signal signal => some { this with sent := this.sent ++ this.process.signal signal }
  | .poll wait answer => some (this.pollWait wait answer)
  | .dropWait wait => some { this with waits := this.waits.erase wait }

def killed (this : Handle) : Bool := this.sent.contains (signalPid this.pid sigkill)

def settled (this : Handle) : Bool :=
  this.reaped || (this.sent ++ this.process.drop.1).contains (signalPid this.pid sigkill)

end Handle

/-! ## One `wait` at a time -/

namespace Handle

variable {this : Handle} {wait : Nat}

theorem process_pollWait (alone : this.waits = [] ∨ this.waits = [wait]) (answer : Poll (Except IoError Int32)) :
    (this.pollWait wait answer).process = (this.process.pollWait answer).2 := by
  obtain ⟨pid, proc, waits, reaped, sent, results⟩ := this
  have serves : serves ⟨pid, proc, waits, reaped, sent, results⟩ wait = true := by
    rcases alone with rfl | rfl <;> simp [Handle.serves]
  have rest : waits.tail = [] := by rcases alone with rfl | rfl <;> rfl
  unfold pollWait
  rw [if_pos serves]
  obtain child | result := proc
  · obtain _ | error | status := answer
    · rfl
    · simp [process, Process.pollWait, rest]
    · simp [process, Process.pollWait, rest]
  · simp [process, Process.pollWait, rest]

theorem process_dropWait (alone : this.waits = [] ∨ this.waits = [wait]) :
    ({ this with waits := this.waits.erase wait } : Handle).process = this.process.dropWait := by
  have none : this.waits.erase wait = [] := by rcases alone with same | same <;> simp [same]
  simp [process, Process.dropWait, none]

end Handle

/-! ## What a step can do -/

def waitFailed : ArcErr := ⟨"Failed to wait for child process"⟩

inductive HandleMove (s : Handle) : HandleStep → Handle → Prop
  | signals (signal : Int32) : HandleMove s (.signal signal) { s with sent := s.sent ++ s.process.signal signal }
  | drops (wait : Nat) : HandleMove s (.dropWait wait) { s with waits := s.waits.erase wait }
  | queues {wait : Nat} {answer : Poll (Except IoError Int32)} {waits : List Nat} : s.serves wait = false →
      waits ≠ [] → HandleMove s (.poll wait answer) { s with waits }
  | waits {wait : Nat} {child : Child} : s.serves wait = true → s.proc = .inl child →
      HandleMove s (.poll wait .pending) { s with waits := wait :: s.waits.tail }
  | reaps {wait : Nat} {child : Child} {status : Int32} : s.serves wait = true → s.proc = .inl child →
      HandleMove s (.poll wait (.ready (.ok status)))
        ⟨s.pid, .inr (.ok status), s.waits.tail, true, s.sent, s.results ++ [.ok status]⟩
  | fails {wait : Nat} {child : Child} {error : IoError} : s.serves wait = true → s.proc = .inl child →
      HandleMove s (.poll wait (.ready (.error error)))
        ⟨s.pid, .inr (.error waitFailed), s.waits.tail, s.reaped, s.sent, s.results ++ [.error waitFailed]⟩
  | repeats {wait : Nat} {answer : Poll (Except IoError Int32)} {result : Except ArcErr Int32} :
      s.serves wait = true → s.proc = .inr result →
      HandleMove s (.poll wait answer) { s with waits := s.waits.tail, results := s.results ++ [result] }

namespace Handle

theorem pollWait_move (s : Handle) (wait : Nat) (answer : Poll (Except IoError Int32)) :
    HandleMove s (.poll wait answer) (s.pollWait wait answer) := by
  obtain ⟨pid, proc, waits, reaped, sent, results⟩ := s
  unfold pollWait
  split
  · rename_i serves
    obtain child | result := proc
    · obtain _ | error | status := answer
      · exact .waits serves rfl
      · have failed : HandleMove _ (.poll wait (.ready (.error error))) _ := .fails serves rfl
        simpa [process, Process.pollWait, Process.reaps, waitFailed] using failed
      · simpa [process, Process.pollWait, Process.reaps] using HandleMove.reaps serves rfl
    · simpa [process, Process.pollWait, Process.reaps] using HandleMove.repeats serves rfl
  · rename_i apart
    have other : serves ⟨pid, proc, waits, reaped, sent, results⟩ wait = false := Bool.eq_false_iff.mpr apart
    have taken : waits ≠ [] := by
      rintro rfl
      cases other
    split
    · exact .queues other taken
    · exact .queues other (List.append_ne_nil_of_left_ne_nil taken _)

theorem step_move {s t : Handle} {label : HandleStep} (moved : s.step label = some t) : HandleMove s label t := by
  cases label with
  | signal signal =>
    cases moved
    exact .signals signal
  | dropWait wait =>
    cases moved
    exact .drops wait
  | poll wait answer =>
    cases moved
    exact pollWait_move s wait answer

end Handle

/-! ## Results -/

namespace Handle

/-- Nothing is given out before the child has been awaited, and then one result
ever after. -/
inductive Awaited (this : Handle) : Prop
  | not : this.proc = .inl ⟨some this.pid⟩ → this.results = [] → this.reaped = false → Awaited this
  | once (result : Except ArcErr Int32) : this.proc = .inr result → (∀ other ∈ this.results, other = result) →
      (this.reaped = true ↔ ∃ status, result = .ok status) → Awaited this

theorem Awaited.step {s t : Handle} {label : HandleStep} (before : s.Awaited) (moved : s.step label = some t) :
    t.Awaited := by
  cases step_move moved with
  | signals | drops | queues =>
    cases before with
    | not child none unreaped => exact .not child none unreaped
    | once result awaited given reaps => exact .once result awaited given reaps
  -- A lock that is free lets a `wait` in, but only one that completes changes the child.
  | waits serves child =>
    cases before with
    | not child none unreaped => exact .not child none unreaped
    | once result awaited => cases child.symm.trans awaited
  | @reaps wait child status serves proc =>
    cases before with
    | not child none unreaped =>
      refine .once (.ok status) rfl (fun other member => ?_) ⟨fun _ => ⟨status, rfl⟩, fun _ => rfl⟩
      rw [none] at member
      exact List.mem_singleton.mp member
    | once result awaited => cases proc.symm.trans awaited
  | fails serves proc =>
    cases before with
    | not child none unreaped =>
      refine .once (.error waitFailed) rfl (fun other member => ?_) ⟨fun reaped => ?_, nofun⟩
      · rw [none] at member
        exact List.mem_singleton.mp member
      · rw [unreaped] at reaped
        cases reaped
    | once result awaited => cases proc.symm.trans awaited
  | @repeats wait answer result serves proc =>
    cases before with
    | not child => cases proc.symm.trans child
    | once only awaited given reaps =>
      cases proc.symm.trans awaited
      refine .once result awaited (fun other member => ?_) reaps
      rcases List.mem_append.mp member with earlier | last
      · exact given other earlier
      · exact List.mem_singleton.mp last

theorem awaited_run {pid : UInt32} {steps : List HandleStep} {s : Handle}
    (run : execute step (.spawned pid) steps = some s) : s.Awaited :=
  invariant_execute Awaited (fun _ _ _ before moved => before.step moved) (.not rfl rfl rfl) run

theorem results_agree {pid : UInt32} {steps : List HandleStep} {s : Handle}
    (run : execute step (.spawned pid) steps = some s) {result : Except ArcErr Int32} (given : result ∈ s.results) :
    s.results.head? = some result := by
  cases awaited_run run with
  | not child none =>
    rw [none] at given
    cases given
  | once only awaited same =>
    cases results : s.results with
    | nil =>
      rw [results] at given
      cases given
    | cons first rest =>
      rw [List.head?_cons, same first (results ▸ List.mem_cons_self), same result given]

/-! ## The drop -/

/-- The child stands behind the lock no more, but neither is it reaped. -/
def abandoned (this : Handle) : Bool :=
  match this.proc with
  | .inl _ | .inr (.ok _) => false
  | .inr (.error _) => true

/-- A step that lets go of the lock for good after a `wait` has failed, when no
signal has ended the child for certain. -/
def abandons (this : Handle) : HandleStep → Bool
  | .signal _ => false
  | .poll wait answer =>
    let fails :=
      match this.proc, answer with
      | .inl _, .ready (.error _) => true
      | .inl _, .pending | .inl _, .ready (.ok _) | .inr _, _ => this.abandoned
    fails && this.serves wait && this.waits.tail.isEmpty && !this.killed
  | .dropWait wait => this.abandoned && (this.waits.erase wait).isEmpty && !this.killed

theorem Awaited.settled_iff {s : Handle} (awaited : s.Awaited) :
    s.settled = true ↔ s.abandoned = true → s.killed = true ∨ s.waits ≠ [] := by
  obtain ⟨pid, proc, waits, reaped, sent, results⟩ := s
  cases awaited with
  | not child =>
    have same : proc = .inl ⟨some pid⟩ := child
    cases same
    cases waits <;> simp [settled, abandoned, process, Process.drop]
  | once result behind given reaps =>
    have same : proc = .inr result := behind
    cases same
    obtain error | status := result
    · have unreaped : reaped = false := Bool.eq_false_iff.mpr fun yes => by simpa using reaps.mp yes
      cases unreaped
      cases waits <;> simp [settled, abandoned, killed, process, Process.drop]
    · have yes : reaped = true := reaps.mpr ⟨status, rfl⟩
      simp [settled, abandoned, yes]

theorem step_settled {s t : Handle} {label : HandleStep} (awaited : s.Awaited) (before : s.settled = true)
    (moved : s.step label = some t) : t.settled = true ↔ s.abandons label = false := by
  rw [(awaited.step moved).settled_iff]
  rw [awaited.settled_iff] at before
  cases step_move moved with
  | signals signal =>
    refine ⟨fun _ => rfl, fun _ abandoned => (before abandoned).imp_left fun killed => ?_⟩
    have earlier : signalPid s.pid sigkill ∈ s.sent := List.contains_iff_mem.mp killed
    exact List.contains_iff_mem.mpr (List.mem_append_left _ earlier)
  | drops wait =>
    show (s.abandoned = true → s.killed = true ∨ s.waits.erase wait ≠ []) ↔ s.abandons (.dropWait wait) = false
    simp only [abandons]
    cases s.abandoned <;> cases s.killed <;> simp
  | queues apart taken =>
    refine ⟨fun _ => ?_, fun _ _ => .inr taken⟩
    simp [abandons, apart]
  | waits serves child => simp [abandons, abandoned, child]
  | reaps serves child => simp [abandons, abandoned, child]
  | fails serves child =>
    show (true = true → s.killed = true ∨ s.waits.tail ≠ []) ↔ _
    simp only [abandons, child, serves]
    cases s.killed <;> simp
  | @repeats wait answer result serves behind =>
    show (s.abandoned = true → s.killed = true ∨ s.waits.tail ≠ []) ↔ _
    simp only [abandons, behind, serves]
    cases s.abandoned <;> cases s.killed <;> simp

end Handle

/-- Wherever a run may end with the drop of the handle, the child has then been
reaped or killed, just as long as no step abandons it. -/
theorem no_child_outlives (pid : UInt32) (steps : List HandleStep) (s : Handle)
    (run : execute Handle.step (.spawned pid) steps = some s) :
    Always Handle.step (fun s => s.settled = true) (.spawned pid) steps ↔
      Throughout Handle.step (fun s label => s.abandons label = false) (.spawned pid) steps := by
  have start : (Handle.spawned pid).Awaited := .not rfl rfl rfl
  have exactly : Always Handle.step (fun s => s.Awaited ∧ s.settled = true) (.spawned pid) steps ↔
      Throughout Handle.step (fun s label => s.abandons label = false) (.spawned pid) steps := by
    refine always_iff_throughout (fun s label t before moved => ?_) ⟨start, start.settled_iff.mpr nofun⟩ run
    rw [← Handle.step_settled before.1 before.2 moved]
    exact and_iff_right (before.1.step moved)
  rw [← exactly]
  constructor
  · intro always first rest t split reached
    exact ⟨Handle.awaited_run reached, always first rest t split reached⟩
  · intro always first rest t split reached
    exact (always first rest t split reached).2

theorem no_child_outlives_waited :
    Always Handle.step (fun s => s.settled = true) (.spawned 7)
      [.poll 0 .pending, .signal 15, .dropWait 0, .poll 1 (.ready (.ok 0)), .poll 2 .pending] := by
  have run : execute Handle.step (.spawned 7)
      [.poll 0 .pending, .signal 15, .dropWait 0, .poll 1 (.ready (.ok 0)), .poll 2 .pending] = some
        ⟨7, .inr (.ok 0), [], true, [⟨7, 15⟩], [.ok 0, .ok 0]⟩ := rfl
  exact (no_child_outlives 7 _ _ run).mpr (by decide)

/-- A child whose `wait` fails goes on without anyone who would kill it. -/
theorem child_outlives :
    ∃ s : Handle, execute Handle.step (.spawned 7) [.poll 0 (.ready (.error ⟨"No child processes (os error 10)"⟩))] =
      some s ∧ s.reaped = false ∧ s.sent ++ s.process.drop.1 = [] := ⟨_, rfl, rfl, rfl⟩

end MinimalVm.Agent
