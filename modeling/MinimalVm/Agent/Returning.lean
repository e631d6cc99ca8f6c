import MinimalVm.Agent.Headway
import MinimalVm.Agent.Leaving
import MinimalVm.Io.LineParser
import MinimalVm.Io.Prompt
import MinimalVm.Io.SendWakeUps
import MinimalVm.Semantics.Reaching

/-! An agent that can always return.

Whatever has happened to it, the body of main can return if from some point on
the connection takes what it is offered, nothing else fails, and a read of a
descriptor number that the agent has closed is answered. Of a reader of this
model it is known that the host disconnects in the end. What was said before the
tasks were over has then been delivered.
-/

set_option autoImplicit false

namespace MinimalVm.Agent

open MinimalVm.Semantics MinimalVm.Protocol MinimalVm.Io

/-- From here on nothing fails outside the agent, reads of closed descriptor numbers
are answered, and the connection is prompt. -/
def Friendly {σ : Type} (prompt : σ) : ServedStep σ → Prop
  | .act action => action.isFriendly = true
  | .writer state => state = prompt
  | .send _ | .leave => True
  | .exit => False

/-! ## What is left of a served agent -/

def turnsLeft {σ : Type} : Closing (Recorded σ) → Nat
  | .flushing => 7
  | .flushed => 6
  | .writing this => if this.transmitting = [] then 4 else 5
  | .shutting _ => 3
  | .closed _ => 0

def Leaving.left {σ : Type} (agent : Nat) : Leaving σ → Nat
  | .serving => agent + 9
  | .flushing => 8
  | .closing turn | .background turn => turnsLeft turn
  | .flushingOut _ => 2
  | .shuttingOut _ => 1
  | .returned _ _ => 0

def Served.left {ρ σ : Type} [MessageReader ρ] (this : Served ρ σ) : Nat := this.leaving.left (workLeft this.agent)

def Served.Undone {ρ σ : Type} (this : Served ρ σ) : Prop :=
  (∃ accepted lost, this.leaving = .returned accepted lost) ∨ ∀ status, this.agent.phase ≠ .done status

section
variable {ρ σ : Type} [MessageReader ρ] {w : AsyncWrite σ} {test : Bool} {toVec : Message → Except SerializeError Bytes}
  {debug : Message → String} {s t : Served ρ σ}

theorem AgentMove.undone {s t : Agent ρ} {action : Action} (move : AgentMove s action t) (other : action ≠ .close)
    (before : ∀ status, s.phase ≠ .done status) (status : Ending) : t.phase ≠ .done status := by
  cases move with
  | closes => exact absurd rfl other
  | receives rx phase | childExits => exact before status
  | refuses | disconnected | requested | spawnFailed | spawned | starts | started | startFailed | exit | stdin | output
  | joined | joinFailed | reports | reported | reportFailed => exact Phase.noConfusion

/-- The connection is prompt from now on, wherever it is. -/
def Served.hurried (prompt : σ) (this : Served ρ σ) : Served ρ σ :=
  { this with tx := Senders.disturbed prompt this.tx, leaving := Served.disturbed prompt this.leaving }

theorem Served.hurried_left (prompt : σ) (s : Served ρ σ) : (s.hurried prompt).left = s.left := by
  obtain ⟨agent, tx, futures, leaving⟩ := s
  match leaving with
  | .serving | .flushing | .flushingOut _ | .shuttingOut _ | .returned _ _ => rfl
  | .closing closing | .background closing => cases closing <;> rfl

def Served.Goes (w : AsyncWrite σ) (test : Bool) (toVec : Message → Except SerializeError Bytes)
    (debug : Message → String) (prompt : σ) (s : Served ρ σ) : Prop :=
  ∃ label t, Friendly prompt label ∧ s.step w test toVec debug label = some t ∧ s.refused w label = false ∧
    t.left < s.left

theorem Served.finish_some {status : Ending} (closing : s.agent.phase = .closing status) (accepted lost : Bytes) :
    ∃ t, s.finish accepted lost = some t ∧ t.leaving = .returned accepted lost := by
  obtain ⟨⟨rx, phase, child, events⟩, tx, futures, leaving⟩ := s
  cases closing
  exact ⟨_, rfl, rfl⟩

theorem Served.returns {accepted lost : Bytes} (returned : t.leaving = .returned accepted lost)
    (busy : 0 < s.left) : t.left < s.left := by
  rw [show t.left = 0 by rw [Served.left, returned]; rfl]
  exact busy

/-! ## The tasks -/

theorem Served.goes_serving {prompt : σ} (advances : Advances ρ) (prompts : Prompt w prompt) {agent : Agent ρ}
    {tx : Tx (Recorded σ)} {futures : Task → DoSend} (now : tx.Prompts prompt) (flushes : agent.phase.Flushes)
    (parent : agent.phase.HasChild agent.child) (undone : ∀ status, agent.phase ≠ .done status) :
    Served.Goes w test toVec debug prompt ⟨agent, tx, futures, .serving⟩ := by
  cases isOver : agent.phase.isOver with
  | true =>
    cases phase : agent.phase with
    | closing status =>
      refine ⟨.leave, ⟨agent, tx, futures, .flushing⟩, trivial, ?_, rfl, ?_⟩
      · simp only [Served.step, Served.leave, phase]
      · show 8 < workLeft agent + 9
        omega
    | done status => exact absurd phase (undone status)
    | receiving | spawning exec | starting lineBuffered process spawned send | running tasks | failing error send =>
      rw [phase] at isOver
      cases isOver
  | false =>
    rcases busy_of_going advances parent isOver with ⟨action, after, quiet, friendly, moved, less⟩ | ⟨task, send, sends⟩
    · refine ⟨.act action, _, friendly, (if_pos quiet).trans (congrArg (Option.map _) moved), rfl, ?_⟩
      exact Nat.add_lt_add_right less 9
    · obtain ⟨result, tx', future, answered⟩ := prompts.poll test now (futures task)
      obtain ⟨after, -, moved, -⟩ := Agent.step_polls sends flushes (.of (hasTaken future) (.ready result))
      have outcome := SendPoll.of_outcome (hasTaken future) (.ready result)
      have less := sends_on sends moved (fun pending => by cases outcome.symm.trans pending)
      let next := Served.settle toVec debug (.ready result) (after.phase.send? task) future
      refine ⟨.send task, ⟨after, tx', Function.update futures task next, .serving⟩, trivial, ?_, rfl, ?_⟩
      · simp only [Served.step, sends, Served.pollSend, answered, moved, Option.map_some, next]
      · exact Nat.add_lt_add_right less 9

/-! ## The end of main -/

theorem Served.leave_closing {agent : Agent ρ} {tx tx' : Tx (Recorded σ)} {futures : Task → DoSend}
    {closing closing' : Closing (Recorded σ)} (turned : closing.turn w.recording tx = some (tx', closing')) :
    Served.leave w ⟨agent, tx, futures, .closing closing⟩ =
      (⟨agent, tx', futures, .closing closing⟩ : Served ρ σ).closed closing' := by
  simp only [Served.leave, turned, Option.bind_some]

theorem Served.background_writes {agent : Agent ρ} {tx tx' : Tx (Recorded σ)} {futures : Task → DoSend}
    {closing : Closing (Recorded σ)} {this : TxLocal (Recorded σ)}
    (turned : closing.turn w.recording tx = some (tx', .writing this)) :
    Served.leave w ⟨agent, tx, futures, .background closing⟩ =
      some ⟨agent, tx, futures, .background (.writing this)⟩ := by
  simp only [Served.leave, turned, Option.bind_some]

theorem Served.background_closed {agent : Agent ρ} {tx tx' : Tx (Recorded σ)} {futures : Task → DoSend}
    {closing : Closing (Recorded σ)} {result : Except CloseError (Recorded σ)}
    (turned : closing.turn w.recording tx = some (tx', .closed result)) :
    Served.leave w ⟨agent, tx, futures, .background closing⟩ =
      (⟨agent, tx, futures, .background closing⟩ : Served ρ σ).finish (acceptedBy tx closing)
        (unwrittenBy tx closing) := by
  simp only [Served.leave, turned, Option.bind_some]
  rfl

theorem Served.goes_closing {prompt : σ} (prompts : Prompt w prompt) {agent : Agent ρ} {tx : Tx (Recorded σ)}
    {futures : Task → DoSend} {closing : Closing (Recorded σ)} (stands : (Leaving.closing closing).Stands tx) :
    Served.Goes w test toVec debug prompt (Served.hurried prompt ⟨agent, tx, futures, .closing closing⟩) := by
  cases closing with
  | flushing =>
    obtain ⟨error | ⟨⟨state, accepted⟩, transmitting⟩⟩ := tx
    · cases stands
    · let flushed : Tx (Recorded σ) := ⟨.ok ⟨⟨prompt, accepted ++ transmitting⟩, []⟩⟩
      refine ⟨.leave, ⟨agent, flushed, futures, .closing .flushed⟩, trivial, ?_, ?_, ?_⟩
      · simp only [Served.step, Served.leave, Served.hurried, Served.disturbed, Clones.disturbed, Senders.disturbed,
          Except.map, Closing.turn, Tx.pollFlush, prompts.pollFlush]
        rfl
      · simp only [Served.refused, Served.hurried, Served.disturbed, Clones.disturbed, Senders.disturbed,
          Except.map, Tx.pollFlush, prompts.pollFlush]
      · exact Nat.lt_succ_self 6
  | flushed =>
    obtain ⟨error | this⟩ := tx
    · cases stands.1
    · refine ⟨.leave, _, trivial, rfl, rfl, ?_⟩
      show (if _ then 4 else 5) < 6
      split <;> omega
  | writing this =>
    obtain ⟨⟨state, accepted⟩, transmitting⟩ := this
    obtain rfl : transmitting = [] := stands
    have turned := prompts.closes (Senders.disturbed prompt tx) accepted
    refine ⟨.leave, ⟨agent, Senders.disturbed prompt tx, futures, .flushingOut ⟨prompt, accepted⟩⟩, trivial, ?_,
      rfl, ?_⟩
    · exact Served.leave_closing turned
    · show 2 < 4
      omega
  | shutting this =>
    obtain ⟨⟨state, accepted⟩, transmitting⟩ := this
    have turned := prompts.shuts (Senders.disturbed prompt tx) accepted transmitting
    refine ⟨.leave, ⟨agent, Senders.disturbed prompt tx, futures, .flushingOut ⟨prompt, accepted⟩⟩, trivial, ?_,
      rfl, ?_⟩
    · exact Served.leave_closing turned
    · exact Nat.lt_succ_self 2
  | closed result => cases stands

theorem Served.goes_background {prompt : σ} (prompts : Prompt w prompt) {agent : Agent ρ} {tx : Tx (Recorded σ)}
    {futures : Task → DoSend} {closing : Closing (Recorded σ)} {status : Ending} (ended : agent.phase = .closing status)
    (stands : (Leaving.background closing).Stands tx) :
    Served.Goes w test toVec debug prompt (Served.hurried prompt ⟨agent, tx, futures, .background closing⟩) := by
  cases closing with
  | writing this =>
    obtain ⟨⟨state, accepted⟩, transmitting⟩ := this
    by_cases nothing : transmitting = []
    · subst nothing
      have turned := prompts.closes (Senders.disturbed prompt tx) accepted
      obtain ⟨t, finished, returned⟩ := Served.finish_some
        (s := Served.hurried prompt ⟨agent, tx, futures, .background (.writing ⟨⟨state, accepted⟩, []⟩)⟩) ended
        accepted []
      refine ⟨.leave, t, trivial, (Served.background_closed turned).trans finished, rfl, ?_⟩
      exact Served.returns returned (Nat.succ_pos 3)
    · have turned := prompts.writesOut (Senders.disturbed prompt tx) accepted nothing
      let next : Closing (Recorded σ) := .writing ⟨⟨prompt, accepted ++ transmitting⟩, []⟩
      refine ⟨.leave, ⟨agent, Senders.disturbed prompt tx, futures, .background next⟩, trivial, ?_, rfl, ?_⟩
      · exact Served.background_writes turned
      · show 4 < if transmitting = [] then 4 else 5
        rw [if_neg nothing]
        exact Nat.lt_succ_self 4
  | shutting this =>
    obtain ⟨⟨state, accepted⟩, transmitting⟩ := this
    have turned := prompts.shuts (Senders.disturbed prompt tx) accepted transmitting
    obtain ⟨t, finished, returned⟩ := Served.finish_some
      (s := Served.hurried prompt ⟨agent, tx, futures, .background (.shutting ⟨⟨state, accepted⟩, transmitting⟩)⟩) ended
      accepted transmitting
    refine ⟨.leave, t, trivial, (Served.background_closed turned).trans finished, rfl, ?_⟩
    exact Served.returns returned (Nat.succ_pos 2)
  | flushing | flushed | closed result => cases stands

structure Alive (toVec : Message → Except SerializeError Bytes) (s : Served ρ σ) : Prop where
  sound : Sound toVec s
  undone : s.Undone
  parent : s.agent.phase.HasChild s.agent.child

theorem Alive.goes {prompt : σ} (advances : Advances ρ) (prompts : Prompt w prompt) (alive : Alive toVec s)
    (out : ¬ ∃ accepted lost, s.leaving = .returned accepted lost) :
    Served.Goes w test toVec debug prompt (s.hurried prompt) := by
  obtain ⟨sound, undone, parent⟩ := alive
  have busy := undone.resolve_left out
  have isOver := sound.isOver
  have stands := sound.stands
  have flushes := sound.flushes
  obtain ⟨agent, tx, futures, leaving⟩ := s
  -- Once main has begun to close, its status is known.
  have closing (left : leaving ≠ .serving) : ∃ status, agent.phase = .closing status := by
    have ended := isOver left
    cases phase : agent.phase with
    | closing status => exact ⟨status, rfl⟩
    | done status => exact absurd phase (busy status)
    | receiving | spawning exec | starting lineBuffered process spawned send | running tasks | failing error send =>
      rw [show agent.phase = _ from phase] at ended
      cases ended
  cases leaving with
  | serving => exact Served.goes_serving advances prompts (Tx.prompts_disturbed tx) flushes parent busy
  | flushing =>
    obtain ⟨error | ⟨⟨state, accepted⟩, transmitting⟩⟩ := tx
    · cases stands
    · refine ⟨.leave, ⟨agent, ⟨.ok ⟨⟨prompt, accepted ++ transmitting⟩, []⟩⟩, futures, .closing .flushing⟩, trivial, ?_,
        rfl, Nat.lt_succ_self 7⟩
      simp only [Served.step, Served.leave, Served.hurried, Served.disturbed, Senders.disturbed, Except.map,
        Tx.pollFlush, prompts.pollFlush]
  | closing turn => exact Served.goes_closing prompts stands
  | background turn =>
    obtain ⟨status, ended⟩ := closing (by simp)
    exact Served.goes_background prompts ended stands
  | flushingOut writer =>
    refine ⟨.leave, ⟨agent, Senders.disturbed prompt tx, futures, .shuttingOut ⟨prompt, writer.accepted⟩⟩, trivial,
      ?_, rfl, Nat.lt_succ_self 1⟩
    simp only [Served.step, Served.leave, Served.hurried, Served.disturbed, prompts.recording_flushes]
  | shuttingOut writer =>
    obtain ⟨status, ended⟩ := closing (by simp)
    obtain ⟨t, finished, returned⟩ := Served.finish_some
      (s := Served.hurried prompt ⟨agent, tx, futures, .shuttingOut writer⟩) ended writer.accepted []
    refine ⟨.leave, t, trivial, ?_, rfl, Served.returns returned (Nat.succ_pos 0)⟩
    simp only [Served.step, Served.leave, Served.hurried, Served.disturbed, prompts.recording_shutsDown]
    exact finished
  | returned accepted lost => exact absurd ⟨accepted, lost, rfl⟩ out

theorem Served.Undone.stays {action : Action} {agent : Agent ρ} (undone : s.Undone)
    (moved : s.agent.step action = some agent)
    (other : action ≠ .close) (leaving : t.leaving = s.leaving) (same : t.agent = agent) : t.Undone := by
  subst same
  rcases undone with ⟨accepted, lost, returned⟩ | busy
  · exact .inl ⟨accepted, lost, leaving.trans returned⟩
  · exact .inr ((Agent.step_move moved).undone other busy)

theorem Served.Leaves.undone (leaves : Served.Leaves s t) (busy : ∀ status, s.agent.phase ≠ .done status) :
    t.Undone := by
  rcases leaves with same | ⟨-, returned⟩
  · exact .inr (same ▸ busy)
  · exact .inl returned

theorem Sound.undone {label : ServedStep σ} (sound : Sound toVec s) (undone : s.Undone)
    (moved : s.step w test toVec debug label = some t) : t.Undone := by
  cases label with
  | act action =>
    simp only [Served.step] at moved
    split at moved
    · rename_i quiet
      obtain ⟨agent, stepped, rfl⟩ := Option.map_eq_some_iff.mp moved
      refine undone.stays stepped ?_ rfl rfl
      rintro rfl
      cases quiet
    · cases moved
  | send task =>
    simp only [Served.step] at moved
    split at moved
    · obtain ⟨polled, agent, tx, future, stepped, -, result⟩ := sound.polls w test debug ‹_›
      obtain rfl := Option.some.inj (result.symm.trans moved)
      refine undone.stays stepped ?_ rfl rfl
      cases task <;> cases s.agent.phase <;> exact Action.noConfusion
    · cases moved
  | leave =>
    rcases undone with ⟨accepted, lost, returned⟩ | busy
    · simp only [Served.step, Served.leave, returned] at moved
      cases moved
    · exact (Served.leave_leaves moved).undone busy
  | exit =>
    rcases undone with ⟨accepted, lost, returned⟩ | busy
    · simp only [Served.step, returned] at moved
      cases moved
    · simp only [Served.step] at moved
      split at moved
      · exact (Served.finish_leaves moved).undone busy
      · cases moved
  | writer state =>
    cases moved
    rcases undone with ⟨accepted, lost, returned⟩ | busy
    · refine .inl ⟨accepted, lost, ?_⟩
      show Served.disturbed state s.leaving = .returned accepted lost
      rw [returned]
      rfl
    · exact .inr busy

theorem Alive.step {label : ServedStep σ} (alive : Alive toVec s) (moved : s.step w test toVec debug label = some t) :
    Alive toVec t where
  sound := alive.sound.step moved
  undone := alive.sound.undone alive.undone moved
  parent := by
    obtain ⟨actions, run⟩ := alive.sound.reaches moved
    exact invariant_execute (fun agent => agent.phase.HasChild agent.child)
      (fun _ _ _ before stepped => (Agent.step_move stepped).hasChild before) alive.parent run

theorem Alive.run {reader : ρ} {state : σ} {steps : List (ServedStep σ)}
    (run : execute (Served.step w test toVec debug) (.new reader state) steps = some s) : Alive toVec s :=
  invariant_execute (Alive toVec) (fun _ _ _ alive moved => alive.step moved)
    ⟨.start reader state, .inr fun _ => Phase.noConfusion, trivial⟩ run

theorem Alive.returns {prompt : σ} (advances : Advances ρ) (prompts : Prompt w prompt) (alive : Alive toVec s) :
    ∃ t, ReachesBy (Served.step w test toVec debug) (Friendly prompt) s t ∧
      (Alive toVec t ∧ (s.leaving.Clean → t.leaving.Clean)) ∧ ∃ accepted lost, t.leaving = .returned accepted lost := by
  have start : Alive toVec s ∧ (s.leaving.Clean → s.leaving.Clean) := ⟨alive, id⟩
  refine reaches_goal Served.left ?_ start
  rintro u ⟨alive, clean⟩ out
  have hurries : u.step w test toVec debug (.writer prompt) = some (u.hurried prompt) := rfl
  have hurried := alive.step hurries
  have goes : Served.Goes w test toVec debug prompt (u.hurried prompt) := alive.goes advances prompts out
  obtain ⟨label, v, friendly, moved, unrefused, less⟩ := goes
  have may : Friendly prompt (.writer prompt) := rfl
  have first : ReachesBy (Served.step w test toVec debug) (Friendly prompt) u (u.hurried prompt) := .one may hurries
  refine ⟨v, first.trans (.one friendly moved), ⟨hurried.step moved, fun was => ?_⟩, ?_⟩
  · exact hurried.sound.clean (alive.sound.clean (clean was) rfl hurries) unrefused moved
  · rwa [u.hurried_left] at less

end

/-- The child has exited, and the host does not take what it is told. -/
def stalled : List (ServedStep Bool) :=
  [.act .receive, .act (.spawn (.ok ⟨7, [], []⟩)), .send .main, .act (.childExits 0),
    .act (.exit (.select false (.ready (.ok 0)))), .send .exit, .send .exit]

end MinimalVm.Agent
