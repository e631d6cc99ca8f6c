import MinimalVm.Agent.Moves
import MinimalVm.Io.Accepted
import Mathlib.Logic.Function.Basic

/-! The agent together with the sending end of its connection.

Every part of the agent that sends awaits a future of its own on a clone of one
`Tx`, and is told what a poll of it comes to. When its tasks are over the agent
flushes, takes the connection back and shuts it down. A sending end that could
not be closed is dropped, and what it still holds is written out in the
background until the process exits.
-/

set_option autoImplicit false

namespace MinimalVm.Agent

open MinimalVm.Semantics MinimalVm.Protocol MinimalVm.Io

/-! ## Who is sending -/

def ExitTask.send? : ExitTask → Option Send
  | .sending _ send => some send
  | .waiting _ | .ended _ => none

def StdinTask.send? : StdinTask → Option Send
  | .sending send => some send
  | .receiving | .writing _ | .ended _ => none

def OutputTask.send? : OutputTask → Option Send
  | .sending _ send | .finishing send => some send
  | .reading _ _ | .ended _ => none

namespace Phase

def send? : Phase → Task → Option Send
  | .starting _ _ _ send, .main | .failing _ send, .main => some send
  | .running tasks, .exit => tasks.exit.send?
  | .running tasks, .stdin => tasks.stdin.send?
  | .running tasks, .output output => (tasks.output output).send?
  | _, _ => none

def sendAction (this : Phase) (polled : SendPoll) : Task → Action
  | .main =>
    match this with
    | .starting _ _ _ _ => .start polled
    | _ => .fail polled
  | .exit => .exit (.send polled)
  | .stdin => .stdin (.send polled)
  | .output output => .output output (.send polled)

end Phase

def Action.isQuiet : Action → Bool
  | .start _ | .fail _ | .exit (.send _) | .stdin (.send _) | .output _ (.send _) | .close => false
  | .receive | .spawn _ | .exit (.select _ _) | .stdin .recv | .stdin (.write _) | .output _ (.select _ _) | .join
  | .childExits _ => true

/-- Whether the message of a future is in the transmit buffer. -/
def hasTaken (future : DoSend) : Bool :=
  match future.msgs with
  | .error _ => false
  | .ok left => left.all fun sending => sending.bytes.isNone

/-! ## The end of main -/

/-- How far main has come after its tasks. -/
inductive Leaving (σ : Type) where
  | serving
  | flushing
  | closing (closing : Closing (Recorded σ))
  | flushingOut (writer : Recorded σ)
  | shuttingOut (writer : Recorded σ)
  | background (closing : Closing (Recorded σ))
  | returned (accepted lost : Bytes)

def acceptedBy {σ : Type} (tx : Tx (Recorded σ)) : Closing (Recorded σ) → Bytes
  | .writing this | .shutting this => this.writer.accepted
  | .flushing | .flushed | .closed _ => tx.accepted

def unwrittenBy {σ : Type} (tx : Tx (Recorded σ)) : Closing (Recorded σ) → Bytes
  | .writing this | .shutting this => this.transmitting
  | .flushing | .flushed | .closed _ => tx.unwritten

structure Served (ρ σ : Type) where
  agent : Agent ρ
  tx : Tx (Recorded σ)
  futures : Task → DoSend
  leaving : Leaving σ

/-- A quiet action, the poll of a send, a call at the end of main, the exit of
the process, or a move of whatever the writer writes to. -/
inductive ServedStep (σ : Type) where
  | act (action : Action)
  | send (task : Task)
  | leave
  | exit
  | writer (state : σ)

namespace Served

variable {ρ σ : Type} [MessageReader ρ]

/-- The bytes that the connection has got. -/
def accepted (this : Served ρ σ) : Bytes :=
  match this.leaving with
  | .serving | .flushing => this.tx.accepted
  | .closing closing | .background closing => acceptedBy this.tx closing
  | .flushingOut writer | .shuttingOut writer => writer.accepted
  | .returned accepted _ => accepted

def unwritten (this : Served ρ σ) : Bytes :=
  match this.leaving with
  | .serving | .flushing => this.tx.unwritten
  | .closing closing | .background closing => unwrittenBy this.tx closing
  | .flushingOut _ | .shuttingOut _ => []
  | .returned _ lost => lost

def finish (this : Served ρ σ) (accepted lost : Bytes) : Option (Served ρ σ) :=
  (this.agent.step .close).map fun agent => { this with agent, leaving := .returned accepted lost }

section
variable (w : AsyncWrite σ) (test : Bool) (toVec : Message → Except SerializeError Bytes) (debug : Message → String)

def new (reader : ρ) (state : σ) : Served ρ σ :=
  ⟨.new reader, .new ⟨state, []⟩, fun _ => ⟨.ok [], false⟩, .serving⟩

/-- A part of the agent that begins to send has a new future. -/
def renew (before after : Option Send) (future : DoSend) : DoSend :=
  match before, after with
  | none, some send => send.request.future toVec debug
  | _, _ => future

def act (this : Served ρ σ) (action : Action) : Option (Served ρ σ) :=
  (this.agent.step action).map fun agent =>
    { this with
      agent
      futures := fun task => renew toVec debug (this.agent.phase.send? task) (agent.phase.send? task) (this.futures task) }

/-- A future that is done makes way for the next one. -/
def settle (outcome : PollSend) (after : Option Send) (future : DoSend) : DoSend :=
  match outcome with
  | .pending => future
  | .ready _ => renew toVec debug none after future

def pollSend (this : Served ρ σ) (task : Task) : Option (Served ρ σ) :=
  let (polled, tx, future) := (this.futures task).poll w.recording test this.tx
  match polled with
  -- The assertion of the source.
  | .panicked => none
  | .answered outcome =>
    (this.agent.step (this.agent.phase.sendAction (.of (hasTaken future) outcome) task)).map fun agent =>
      let next := settle toVec debug outcome (agent.phase.send? task) future
      { this with agent, tx, futures := Function.update this.futures task next }

/-- What a turn of closing leads to. A sending end that was not taken out is
dropped with the clone that failed to close it. -/
def closed (this : Served ρ σ) : Closing (Recorded σ) → Option (Served ρ σ)
  | .closed (.ok writer) => some { this with leaving := .flushingOut writer }
  | .closed (.error (.shutdown _)) => this.finish this.accepted this.unwritten
  | .closed (.error (.send _)) =>
    match this.tx.shared with
    | .ok tx => some { this with tx := ⟨.error .closed⟩, leaving := .background (.writing tx) }
    | .error _ => this.finish this.accepted this.unwritten
  | closing => some { this with leaving := .closing closing }

def leave (this : Served ρ σ) : Option (Served ρ σ) :=
  match this.leaving with
  | .serving =>
    match this.agent.phase with
    | .closing _ => some { this with leaving := .flushing }
    | _ => none
  | .flushing =>
    match this.tx.pollFlush w.recording with
    | (.pending, tx) => some { this with tx }
    | (.ready _, tx) => some { this with tx, leaving := .closing .flushing }
  | .closing closing => (closing.turn w.recording this.tx).bind fun turned => { this with tx := turned.1 }.closed turned.2
  | .flushingOut writer =>
    match w.recording.pollFlush writer with
    | (.pending, writer) => some { this with leaving := .flushingOut writer }
    | (.ready _, writer) => some { this with leaving := .shuttingOut writer }
  | .shuttingOut writer =>
    match w.recording.pollShutdown writer with
    | (.pending, writer) => some { this with leaving := .shuttingOut writer }
    | (.ready _, writer) => this.finish writer.accepted []
  | .background closing =>
    (closing.turn w.recording this.tx).bind fun turned =>
      match turned.2 with
      | .closed _ => this.finish this.accepted this.unwritten
      | closing => some { this with leaving := .background closing }
  | .returned _ _ => none

def disturbed (state : σ) : Leaving σ → Leaving σ
  | .closing closing => .closing (Clones.disturbed state closing)
  | .background closing => .background (Clones.disturbed state closing)
  | .flushingOut writer => .flushingOut { writer with state }
  | .shuttingOut writer => .shuttingOut { writer with state }
  | leaving => leaving

def step (this : Served ρ σ) : ServedStep σ → Option (Served ρ σ)
  | .act action => if action.isQuiet then this.act toVec debug action else none
  | .send task =>
    match this.agent.phase.send? task with
    | some _ => this.pollSend w test toVec debug task
    | none => none
  | .leave => this.leave w
  | .exit =>
    match this.leaving with
    | .background _ => this.finish this.accepted this.unwritten
    | _ => none
  | .writer state => some { this with tx := Senders.disturbed state this.tx, leaving := disturbed state this.leaving }

end
end Served
end MinimalVm.Agent
