import MinimalVm.Liveness.Disks
import MinimalVm.Semantics.Execution

/-! The loop that reports to the host.

A report is collected and sent, and then the loop rests until the next one is
due or the agent is to shut down. A poll of the loop may complete several
reports; its label says what it finds whenever it selects, after which both the
shutdown and the sleep are pending. The writer stands for the buffer in front of
the connection, and it answers as it likes.
-/

set_option autoImplicit false

namespace MinimalVm.Liveness

open MinimalVm.Semantics

/-! ## Collecting -/

structure Guests where
  systemd : Guest
  cpu : Guest
  memory : Guest
  swap : Guest
  disks : Guest

def collect (guests : Guests) (cpu : CpuSample) : Except MetricsError Status × CpuSample :=
  match sample guests.cpu cpu with
  | .error error => (.error error, cpu)
  | .ok (cpuPercent, cpu) =>
    match memory guests.memory with
    | .error error => (.error error, cpu)
    | .ok memory =>
      match swap guests.swap with
      | .error error => (.error error, cpu)
      | .ok swap =>
        match disks guests.disks with
        | .error error => (.error error, cpu)
        | .ok disks => (.ok ⟨guests.systemd.systemdState, cpuPercent, memory, swap, disks⟩, cpu)

/-! ## Sending -/

inductive SendError where
  | serializing (cause : IoError)
  | writing (cause : IoError)
  | newline (cause : IoError)
  | flushing (cause : IoError)
  deriving DecidableEq, Repr

def SendError.message : SendError → String
  | serializing _ => "serializing status"
  | writing _ => "writing status"
  | newline _ => "writing status newline"
  | flushing _ => "flushing status"

/-- What is left of a status on its way out. -/
inductive Sending where
  | line (left : Bytes)
  | newline (left : Bytes)
  | flush
  deriving DecidableEq, Repr

section
variable {σ : Type} (w : AsyncWrite σ)

def pollWriteAll (writer : σ) (left : Bytes) : Poll (Except IoError Unit) × Bytes × σ :=
  if left = [] then (.ready (.ok ()), [], writer)
  else
    match w.pollWrite writer left with
    | (.pending, writer) => (.pending, left, writer)
    | (.ready (.error error), writer) => (.ready (.error error), left, writer)
    | (.ready (.ok n), writer) =>
      -- `write_all` gives up on a writer that accepts nothing.
      if n.val = 0 then (.ready (.error ⟨"write zero"⟩), left, writer) else pollWriteAll writer (left.drop n.val)
termination_by left.length

def pollFlush (writer : σ) : Poll (Except SendError Unit) × Sending × σ :=
  match w.pollFlush writer with
  | (.pending, writer) => (.pending, .flush, writer)
  | (.ready (.error error), writer) => (.ready (.error (.flushing error)), .flush, writer)
  | (.ready (.ok ()), writer) => (.ready (.ok ()), .flush, writer)

def pollNewline (writer : σ) (left : Bytes) : Poll (Except SendError Unit) × Sending × σ :=
  match pollWriteAll w writer left with
  | (.pending, left, writer) => (.pending, .newline left, writer)
  | (.ready (.error error), left, writer) => (.ready (.error (.newline error)), .newline left, writer)
  | (.ready (.ok ()), _, writer) => pollFlush w writer

def Sending.poll (writer : σ) : Sending → Poll (Except SendError Unit) × Sending × σ
  | .line left =>
    match pollWriteAll w writer left with
    | (.pending, left, writer) => (.pending, .line left, writer)
    | (.ready (.error error), left, writer) => (.ready (.error (.writing error)), .line left, writer)
    | (.ready (.ok ()), _, writer) => pollNewline w writer [10]
  | .newline left => pollNewline w writer left
  | .flush => pollFlush w writer

end

/-! ## The loop -/

inductive ReportError where
  | metrics (cause : MetricsError)
  | send (cause : SendError)
  deriving DecidableEq, Repr

def ReportError.message : ReportError → String
  | metrics cause => cause.message
  | send _ => "host connection lost while reporting"

structure Reported (σ : Type) where
  outcome : Poll (Except ReportError Unit)
  sending : Sending
  cpu : CpuSample
  writer : σ

/-- What a selection finds ready. -/
inductive Select where
  | shutdown
  | slept (guests : Guests)

/-- What can be seen of the loop. -/
inductive ReportEvent where
  | sampled (guest : Guest)
  | began (guests : Guests)
  | sendFailed (error : SendError)
  | shutdown

inductive Phase where
  | initial
  | sending (cpu : CpuSample) (sending : Sending)
  | resting (cpu : CpuSample)
  | returned (result : Except MetricsError Unit)

structure Reporter (σ : Type) where
  writer : σ
  phase : Phase
  events : List ReportEvent

/-- A poll of the loop. The first one begins with a CPU sample and a report. -/
inductive ReporterPoll where
  | first (guest : Guest) (guests : Guests) (selects : List Select)
  | again (selects : List Select)

def ReportError.events : ReportError → List ReportEvent
  | metrics _ => []
  | send cause => [.sendFailed cause]

section
variable {σ : Type} (w : AsyncWrite σ) (toJson : Status → Except IoError Bytes)

def resumeReport (cpu : CpuSample) (writer : σ) (sending : Sending) : Reported σ :=
  match sending.poll w writer with
  | (.pending, sending, writer) => ⟨.pending, sending, cpu, writer⟩
  | (.ready (.error error), sending, writer) => ⟨.ready (.error (.send error)), sending, cpu, writer⟩
  | (.ready (.ok ()), sending, writer) => ⟨.ready (.ok ()), sending, cpu, writer⟩

def beginReport (guests : Guests) (cpu : CpuSample) (writer : σ) : Reported σ :=
  match collect guests cpu with
  | (.error error, cpu) => ⟨.ready (.error (.metrics error)), .flush, cpu, writer⟩
  | (.ok status, cpu) =>
    match toJson status with
    | .error cause => ⟨.ready (.error (.send (.serializing cause))), .flush, cpu, writer⟩
    | .ok line => resumeReport w cpu writer (.line line)

/-- What the loop does after a poll of a report, as far as it gets. -/
def proceed (events : List ReportEvent) (reported : Reported σ) (selects : List Select) : Reporter σ :=
  match reported.outcome with
  | .pending => ⟨reported.writer, .sending reported.cpu reported.sending, events⟩
  -- Whatever went wrong, the loop ends as if the host had gone.
  | .ready (.error error) => ⟨reported.writer, .returned (.ok ()), events ++ error.events⟩
  | .ready (.ok ()) =>
    match selects with
    | [] => ⟨reported.writer, .resting reported.cpu, events⟩
    | .shutdown :: _ => ⟨reported.writer, .returned (.ok ()), events ++ [.shutdown]⟩
    | .slept guests :: selects =>
      proceed (events ++ [.began guests]) (beginReport w toJson guests reported.cpu reported.writer) selects

namespace Reporter

def new (writer : σ) : Reporter σ := ⟨writer, .initial, []⟩

def poll (this : Reporter σ) : ReporterPoll → Option (Reporter σ)
  | .first guest guests selects =>
    match this.phase with
    | .initial =>
      match cpuSample guest with
      | .error error => some ⟨this.writer, .returned (.error error), this.events ++ [.sampled guest]⟩
      | .ok cpu =>
        some (proceed w toJson (this.events ++ [.sampled guest, .began guests])
          (beginReport w toJson guests cpu this.writer) selects)
    | .sending _ _ | .resting _ | .returned _ => none
  | .again selects =>
    match this.phase with
    | .sending cpu sending =>
      some (proceed w toJson this.events (resumeReport w cpu this.writer sending) selects)
    | .resting cpu => some (proceed w toJson this.events ⟨.ready (.ok ()), .flush, cpu, this.writer⟩ selects)
    | .initial | .returned _ => none

end Reporter
end

end MinimalVm.Liveness
