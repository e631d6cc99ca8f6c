import MinimalVm.Agent.Finishing

/-! What the agent says reaches the connection.

Each send that is awaited has a future at the same point. What the connection
has got and what is still to be written are the frames of the messages
enqueued, and they have been written up to the point at which a part of the
agent last finished.
-/

set_option autoImplicit false

namespace MinimalVm.Agent

open MinimalVm.Semantics MinimalVm.Protocol MinimalVm.Io

/-! ## A send and its future -/

/-- A future takes the message of a send, or the message could not be encoded. -/
inductive Awaits (toVec : Message → Except SerializeError Bytes) (send : Send) (future : DoSend) : Prop
  | carried : send.Matches toVec future → Awaits toVec send future
  | refused {error : SendError} : send.taken = false → future.msgs = .error error → Awaits toVec send future

theorem Send.request_refused {toVec : Message → Except SerializeError Bytes} {debug : Message → String} {send : Send}
    {cause : SerializeError} (unencodable : toVec send.msg = .error cause) :
    ∃ error, (send.request.future toVec debug).msgs = .error error := by
  refine ⟨.prepare ("Failed to prepare message for sending: " ++ debug send.msg) cause, ?_⟩
  unfold request
  split <;> simp [SendRequest.future, DoSend.prepareMsgs, Sending.new, unencodable] <;> rfl

theorem Awaits.request {toVec : Message → Except SerializeError Bytes} {debug : Message → String} {send : Send}
    (fresh : send.taken = false) : Awaits toVec send (send.request.future toVec debug) := by
  cases encoding : toVec send.msg with
  | ok payload => exact .carried (Send.new_matches fresh encoding)
  | error cause =>
    obtain ⟨error, refused⟩ : ∃ error, (send.request.future toVec debug).msgs = .error error :=
      Send.request_refused encoding
    exact .refused fresh refused

theorem hasTaken_left {future : DoSend} {left : List Sending} (msgs : future.msgs = .ok left) :
    hasTaken future = true ↔ left.flatMap Sending.payloads = [] := by
  simp [hasTaken, msgs, Sending.payloads, List.flatMap_eq_nil_iff, List.all_eq_true]

theorem hasTaken_matches {toVec : Message → Except SerializeError Bytes} {send : Send} {future : DoSend}
    (same : send.Matches toVec future) : hasTaken future = send.taken := by
  obtain ⟨payload, left, -, msgs, -, held⟩ := same
  rw [Bool.eq_iff_iff, hasTaken_left msgs, held]
  cases send.taken <;> simp

section
variable {σ : Type} {toVec : Message → Except SerializeError Bytes}

structure Conveys (toVec : Message → Except SerializeError Bytes) (send : Send) (polled : SendPoll) (future : DoSend)
    (tx tx' : Tx (Recorded σ)) : Prop where
  awaits : Awaits toVec (send.poll polled) future
  emits : ∃ payloads, (send.newly polled).map toVec = payloads.map .ok ∧ tx'.emitted = tx.emitted ++ framesOf payloads
  grows : tx.accepted <+: tx'.accepted
  flushed : polled = .sent → send.flush = true → tx'.unwritten = []
  opens : tx'.isOpen = tx.isOpen

theorem Send.poll_taken {send : Send} {polled other : SendPoll} (takes : other.takes = (send.taken || polled.takes)) :
    send.poll other = send.poll polled ∧ send.newly other = send.newly polled := by
  obtain ⟨msg, flush, taken⟩ := send
  cases taken <;> simp_all [poll, newly]

theorem SendPoll.sent_of_ok {polled : SendPoll} (ok : polled.outcome = .ready (.ok ())) : polled = .sent := by
  cases polled with
  | pending takes | failed takes error => cases ok
  | sent => rfl

theorem Send.newly_failed (send : Send) (error : SendError) : send.newly (.failed false error) = [] := by
  simp [newly, SendPoll.takes]

theorem Awaits.poll {send : Send} {future : DoSend} (awaits : Awaits toVec send future) (w : AsyncWrite σ) (test : Bool)
    (tx : Tx (Recorded σ)) :
    let result := future.poll w.recording test tx
    ∃ outcome, result.1 = .answered outcome ∧
      Conveys toVec send (.of (hasTaken result.2.2) outcome) result.2.2 tx result.2.1 := by
  intro result
  have grows := future.poll_grows w test tx
  have opens := future.poll_open w.recording test tx
  cases awaits with
  | carried same =>
    obtain ⟨polled, payloads, answered, carried, newly, emitted⟩ := send.poll_matches same w test tx
    have taken : hasTaken result.2.2 = (send.taken || polled.takes) := hasTaken_matches carried
    have complete (ok : polled.outcome = .ready (.ok ())) : hasTaken result.2.2 = true := by
      rw [taken, SendPoll.sent_of_ok ok]
      exact Bool.or_true _
    have takes := (SendPoll.of_takes complete).trans taken
    obtain ⟨samePoll, sameNewly⟩ := Send.poll_taken takes
    have emits : ∃ payloads, (send.newly (.of (hasTaken result.2.2) polled.outcome)).map toVec = payloads.map .ok ∧
        result.2.1.emitted = tx.emitted ++ framesOf payloads := ⟨payloads, sameNewly ▸ newly, emitted⟩
    refine ⟨polled.outcome, answered, .carried (samePoll ▸ carried), emits, grows, ?_, opens⟩
    intro isSent flushes
    obtain ⟨-, -, -, -, flush, -⟩ := same
    apply DoSend.poll_unwritten test (flush.trans flushes)
    have outcome := SendPoll.of_outcome (hasTaken result.2.2) polled.outcome
    rw [isSent] at outcome
    exact answered.trans (congrArg Polled.answered outcome.symm)
  | @refused error fresh msgs =>
    obtain ⟨failed, flush⟩ := future
    cases msgs
    have untaken : (send.poll (.failed false error)).taken = false := by
      rw [Send.poll, fresh]
      rfl
    refine ⟨.ready (.error error), rfl, .refused untaken rfl, ⟨[], ?_, (List.append_nil _).symm⟩, grows, ?_, opens⟩
    · rw [show SendPoll.of (hasTaken result.2.2) (.ready (.error error)) = .failed false error from rfl,
        Send.newly_failed]
      rfl
    · intro isSent
      cases isSent

end

/-! ## The end of main -/

def Phase.isOver : Phase → Bool
  | .closing _ | .done _ => true
  | .receiving | .spawning _ | .starting _ _ _ _ | .running _ | .failing _ _ => false

theorem Phase.send?_over {phase : Phase} (isOver : phase.isOver = true) (task : Task) : phase.send? task = none := by
  cases phase with
  | closing status | done status => cases task <;> rfl
  | receiving | spawning exec | starting lineBuffered process child send | running tasks | failing error send =>
    cases isOver

theorem Phase.flushes_over {phase : Phase} (isOver : phase.isOver = true) : phase.Flushes := by
  cases phase with
  | closing status | done status => trivial
  | receiving | spawning exec | starting lineBuffered process child send | running tasks | failing error send =>
    cases isOver

theorem AgentMove.isOver {ρ : Type} [MessageReader ρ] {s t : Agent ρ} {action : Action} (move : AgentMove s action t)
    (isOver : s.phase.isOver = true) : t.phase.isOver = true := by
  cases move with
  | childExits => exact isOver
  | closes => rfl
  | receives _ phase | refuses _ _ phase | disconnected _ phase | requested _ _ phase | spawnFailed _ phase
  | spawned _ phase | starts _ phase | started phase | startFailed _ _ phase | exit _ phase | stdin _ phase
  | output _ phase | joined phase | joinFailed phase | reports _ phase | reported phase | reportFailed _ _ phase =>
    rw [phase] at isOver
    cases isOver

/-- Where the end of main has got to. The buffer that closing takes has been
flushed, so it holds nothing. -/
def Leaving.Stands {σ : Type} (tx : Tx (Recorded σ)) : Leaving σ → Prop
  | .serving | .flushing | .closing .flushing => tx.isOpen = true
  | .closing .flushed => tx.isOpen = true ∧ tx.unwritten = []
  | .closing (.writing this) | .closing (.shutting this) => this.transmitting = []
  | .background (.writing _) | .background (.shutting _) => True
  | .closing (.closed _) | .background .flushing | .background .flushed | .background (.closed _) => False
  | .flushingOut _ | .shuttingOut _ | .returned _ _ => True

def Framed (toVec : Message → Except SerializeError Bytes) (msgs : List Message) (bytes : Bytes) : Prop :=
  ∃ payloads, msgs.map toVec = payloads.map .ok ∧ bytes = framesOf payloads

theorem Framed.append {toVec : Message → Except SerializeError Bytes} {first rest : List Message} {bytes more : Bytes}
    (one : Framed toVec first bytes) (two : Framed toVec rest more) : Framed toVec (first ++ rest) (bytes ++ more) := by
  obtain ⟨payloads, encoded, rfl⟩ := one
  obtain ⟨others, encodes, rfl⟩ := two
  exact ⟨payloads ++ others, by rw [List.map_append, encoded, encodes, List.map_append], (framesOf_append _ _).symm⟩

/-- The connection has got the frames of what was enqueued, or they are still to
be written. Up to where a task finished it has got them. -/
structure Sound {ρ σ : Type} (toVec : Message → Except SerializeError Bytes) (s : Served ρ σ) : Prop where
  flushes : s.agent.phase.Flushes
  awaits : ∀ task send, s.agent.phase.send? task = some send → Awaits toVec send (s.futures task)
  wire : Framed toVec s.agent.log (s.accepted ++ s.unwritten)
  finished : ∀ first task rest, s.agent.events = first ++ .finished task :: rest →
    ∃ bytes, Framed toVec (logOf first) bytes ∧ bytes <+: s.accepted
  isOver : s.leaving ≠ .serving → s.agent.phase.isOver = true
  stands : s.leaving.Stands s.tx

section
variable {ρ σ : Type} [MessageReader ρ] {w : AsyncWrite σ} {test : Bool} {toVec : Message → Except SerializeError Bytes}
  {debug : Message → String} {s t : Served ρ σ}

omit [MessageReader ρ] in
theorem Sound.start (reader : ρ) (state : σ) : Sound toVec (.new reader state : Served ρ σ) where
  flushes := trivial
  awaits task _ sends := by cases task <;> cases sends
  wire := ⟨[], rfl, rfl⟩
  finished first task rest split := by cases first <;> cases split
  isOver serving := absurd rfl serving
  stands := rfl

namespace Sound

omit [MessageReader ρ] in
theorem moves (sound : Sound toVec s) (isOver : t.agent.phase.isOver = true) (events : t.agent.events = s.agent.events)
    (grows : s.accepted <+: t.accepted) (total : t.accepted ++ t.unwritten = s.accepted ++ s.unwritten)
    (stands : t.leaving.Stands t.tx) : Sound toVec t where
  flushes := t.agent.phase.flushes_over isOver
  awaits task send sends := by
    rw [t.agent.phase.send?_over isOver] at sends
    cases sends
  wire := by
    rw [total, Agent.log, events]
    exact sound.wire
  finished first task rest split := by
    obtain ⟨bytes, framed, arrived⟩ := sound.finished first task rest (events ▸ split)
    exact ⟨bytes, framed, arrived.trans grows⟩
  isOver _ := isOver
  stands := stands

omit [MessageReader ρ] in
theorem stays (sound : Sound toVec s) (isOver : t.agent.phase.isOver = true) (events : t.agent.events = s.agent.events)
    (accepted : t.accepted = s.accepted) (unwritten : t.unwritten = s.unwritten) (stands : t.leaving.Stands t.tx) :
    Sound toVec t :=
  sound.moves isOver events (accepted ▸ List.prefix_rfl) (by rw [accepted, unwritten]) stands

theorem finish {accepted lost : Bytes} (sound : Sound toVec s) (has : s.accepted = accepted)
    (lacks : s.unwritten = lost) (moved : s.finish accepted lost = some t) : Sound toVec t := by
  obtain ⟨agent, closed, rfl⟩ := Option.map_eq_some_iff.mp moved
  cases Agent.step_move closed with
  | closes phase => exact sound.stays rfl (List.append_nil _) has.symm lacks.symm trivial

theorem closing {agent : Agent ρ} {tx tx' : Tx (Recorded σ)} {futures : Task → DoSend}
    {closing closing' : Closing (Recorded σ)}
    (sound : Sound toVec ⟨agent, tx, futures, .closing closing⟩) (turned : closing.turn w.recording tx = some (tx', closing'))
    (closed : (⟨agent, tx', futures, .closing closing⟩ : Served ρ σ).closed closing' = some t) : Sound toVec t := by
  have isOver := sound.isOver nofun
  have stands := sound.stands
  cases closing with
  | flushing =>
    obtain ⟨grows, total, opens⟩ := tx.pollFlush_moves w
    have nothing := tx.pollFlush_unwritten w.recording
    simp only [Closing.turn] at turned
    split at turned
    · rename_i flushed polled
      rw [polled] at grows total opens
      cases turned
      cases closed
      exact sound.moves isOver rfl grows total (opens.trans stands)
    · -- The end is open, so its buffer is written out in the background.
      rename_i error flushed polled
      rw [polled] at grows total opens
      cases turned
      obtain ⟨shut | this⟩ := tx'
      · cases opens.trans stands
      · cases closed
        exact sound.moves isOver rfl grows total trivial
    · rename_i flushed polled
      rw [polled] at grows total opens nothing
      cases turned
      cases closed
      exact sound.moves isOver rfl grows total ⟨opens.trans stands, nothing rfl⟩
  | flushed =>
    obtain ⟨opened, nothing⟩ := stands
    obtain ⟨shut | this⟩ := tx
    · cases opened
    · cases turned
      cases closed
      exact sound.moves isOver rfl List.prefix_rfl rfl nothing
  -- The buffer was empty when it was taken, so there is nothing to lose.
  | writing this | shutting this =>
    obtain ⟨rfl, writes⟩ := Closing.turn_writesOut w rfl turned
    have nothing : this.transmitting = [] := stands
    cases writes with
    | writing grows total left => 
      cases closed
      exact sound.moves isOver rfl grows total (left nothing)
    | @shutting writer same =>
      cases closed
      exact sound.stays isOver rfl same rfl nothing
    | failed => exact sound.finish rfl rfl closed
    | @closed writer same =>
      cases closed
      exact sound.stays isOver rfl same nothing.symm trivial
  | closed result => cases stands

theorem background {agent : Agent ρ} {tx : Tx (Recorded σ)} {futures : Task → DoSend} {closing : Closing (Recorded σ)}
    (sound : Sound toVec ⟨agent, tx, futures, .background closing⟩)
    (moved : (⟨agent, tx, futures, .background closing⟩ : Served ρ σ).leave w = some t) : Sound toVec t := by
  have isOver := sound.isOver nofun
  have stands := sound.stands
  obtain ⟨⟨tx', closing'⟩, turned, moved⟩ := Option.bind_eq_some_iff.mp moved
  cases closing with
  | writing this | shutting this =>
    obtain ⟨rfl, writes⟩ := Closing.turn_writesOut w rfl turned
    cases writes with
    | writing grows total left =>
      cases moved
      exact sound.moves isOver rfl grows total trivial
    | shutting same =>
      cases moved
      exact sound.stays isOver rfl same rfl trivial
    | failed | closed => exact sound.finish rfl rfl moved
  -- The background begins where the buffer has been taken out.
  | flushing | flushed | closed result => cases stands

theorem leave (sound : Sound toVec s) (moved : s.leave w = some t) : Sound toVec t := by
  obtain ⟨agent, tx, futures, leaving⟩ := s
  have isOver := sound.isOver
  have stands := sound.stands
  cases leaving with
  | serving =>
    simp only [Served.leave] at moved
    split at moved
    · rename_i status phase
      cases moved
      exact sound.stays (phase ▸ rfl) rfl rfl rfl stands
    · cases moved
  | flushing =>
    obtain ⟨grows, total, opens⟩ := tx.pollFlush_moves w
    simp only [Served.leave] at moved
    split at moved
    · rename_i polled
      rw [polled] at grows total opens
      cases moved
      exact sound.moves (isOver nofun) rfl grows total (opens.trans stands)
    · rename_i polled
      rw [polled] at grows total opens
      cases moved
      exact sound.moves (isOver nofun) rfl grows total (opens.trans stands)
  | closing closing =>
    obtain ⟨⟨tx', closing'⟩, turned, closed⟩ := Option.bind_eq_some_iff.mp moved
    exact sound.closing turned closed
  | flushingOut writer =>
    have same : (w.recording.pollFlush writer).2.accepted = writer.accepted := rfl
    simp only [Served.leave] at moved
    split at moved
    · rename_i polled
      rw [polled] at same
      cases moved
      exact sound.stays (isOver nofun) rfl same rfl trivial
    · rename_i polled
      rw [polled] at same
      cases moved
      exact sound.stays (isOver nofun) rfl same rfl trivial
  | shuttingOut writer =>
    have same : (w.recording.pollShutdown writer).2.accepted = writer.accepted := rfl
    simp only [Served.leave] at moved
    split at moved
    · rename_i polled
      rw [polled] at same
      cases moved
      exact sound.stays (isOver nofun) rfl same rfl trivial
    · rename_i polled
      rw [polled] at same
      exact sound.finish same.symm rfl moved
  | background closing => exact sound.background moved
  | returned accepted lost => cases moved

end Sound

/-! ## Every step -/

omit [MessageReader ρ] in
theorem disturbed_same (s : Served ρ σ) (state : σ) :
    let t : Served ρ σ := { s with tx := Senders.disturbed state s.tx, leaving := Served.disturbed state s.leaving }
    t.accepted = s.accepted ∧ t.unwritten = s.unwritten ∧ (t.leaving.Stands t.tx ↔ s.leaving.Stands s.tx) := by
  obtain ⟨agent, ⟨shut | tx⟩, futures, leaving⟩ := s
  all_goals
    match leaving with
    | .serving | .flushing | .flushingOut _ | .shuttingOut _ | .returned _ _ => exact ⟨rfl, rfl, Iff.rfl⟩
    | .closing closing | .background closing => cases closing <;> exact ⟨rfl, rfl, Iff.rfl⟩

theorem Awaits.renew {before after : Option Send} {future : DoSend} (begun : Begun before after)
    (had : ∀ send, before = some send → Awaits toVec send future) {send : Send} (sends : after = some send) :
    Awaits toVec send (Served.renew toVec debug before after future) := by
  subst sends
  cases begun with
  | same => exact had send rfl
  | begins fresh => exact .request fresh

theorem Awaits.settle {send next : Send} {polled : SendPoll} {after : Option Send} {future : DoSend}
    (went : Went send polled after) (awaits : Awaits toVec (send.poll polled) future) (sends : after = some next) :
    Awaits toVec next (Served.settle toVec debug polled.outcome after future) := by
  subst sends
  cases went with
  | goesOn pending =>
    rw [pending]
    exact awaits
  | done answered begun =>
    unfold Served.settle
    split
    · exact absurd ‹_› answered
    · exact .renew begun nofun rfl

namespace Sound

theorem act {action : Action} (sound : Sound toVec s) (quiet : action.isQuiet = true)
    (moved : s.act toVec debug action = some t) : Sound toVec t := by
  obtain ⟨agent, stepped, rfl⟩ := Option.map_eq_some_iff.mp moved
  have move := Agent.step_move stepped
  obtain ⟨events, grown, silent, begun⟩ := Agent.step_quiet stepped quiet
  have same : agent.log = s.agent.log := by rw [Agent.log, grown, logOf_append, silent.1, List.append_nil]; rfl
  constructor
  · exact move.flushes sound.flushes
  · exact fun task send sends => .renew (begun task) (sound.awaits task) sends
  · exact same ▸ sound.wire
  · intro first task rest split
    rcases occurrence_append (grown.symm.trans split) with ⟨middle, earlier, -⟩ | ⟨middle, -, later⟩
    · exact sound.finished first task middle earlier
    · exact absurd (by simp [later]) (silent.2 task)
  · exact fun leaving => move.isOver (sound.isOver leaving)
  · exact sound.stands

omit [MessageReader ρ] in
theorem serving (sound : Sound toVec s) {task : Task} {send : Send} (sends : s.agent.phase.send? task = some send) :
    s.leaving = .serving := by
  by_contra leaving
  rw [Phase.send?_over (sound.isOver leaving)] at sends
  cases sends

theorem polls (sound : Sound toVec s) (w : AsyncWrite σ) (test : Bool) (debug : Message → String) {task : Task}
    {send : Send} (sends : s.agent.phase.send? task = some send) :
    ∃ polled agent tx future, s.agent.step (s.agent.phase.sendAction polled task) = some agent ∧
      Conveys toVec send polled future s.tx tx ∧
      s.pollSend w test toVec debug task = some { s with
        agent
        tx
        futures := Function.update s.futures task
          (Served.settle toVec debug polled.outcome (agent.phase.send? task) future) } := by
  obtain ⟨outcome, answered, conveys⟩ := (sound.awaits task send sends).poll w test s.tx
  generalize polling : (s.futures task).poll w.recording test s.tx = result at answered conveys
  obtain ⟨polled, tx, future⟩ := result
  cases answered
  obtain ⟨agent, -, stepped, -⟩ := Agent.step_polls sends sound.flushes (.of (hasTaken future) outcome)
  refine ⟨_, agent, tx, future, stepped, conveys, ?_⟩
  rw [Served.pollSend, polling, SendPoll.of_outcome]
  simp only [stepped, Option.map_some]

theorem send {task : Task} {send : Send} (sound : Sound toVec s) (sends : s.agent.phase.send? task = some send)
    (moved : s.pollSend w test toVec debug task = some t) : Sound toVec t := by
  obtain ⟨polled, agent, tx, future, stepped, conveys, result⟩ := sound.polls w test debug sends
  obtain rfl := Option.some.inj (result.symm.trans moved)
  obtain ⟨agent', events, stepped', grown, polls, others⟩ := Agent.step_polls sends sound.flushes polled
  obtain rfl := Option.some.inj (stepped.symm.trans stepped')
  have serving := sound.serving sends
  obtain ⟨s, tx₀, futures, leaving⟩ := s
  cases serving
  obtain ⟨rest, rfl, quiet, ends⟩ := polls.shows
  obtain ⟨payloads, newly, emitted⟩ := conveys.emits
  have wire : Framed toVec agent.log (tx.accepted ++ tx.unwritten) := by
    rw [Agent.log, grown, ← List.append_assoc, logOf_append, quiet, List.append_nil, logOf_append, logOf_send,
      ← tx.emitted_eq, emitted, tx₀.emitted_eq]
    exact sound.wire.append ⟨payloads, newly, rfl⟩
  constructor
  · exact (Agent.step_move stepped).flushes sound.flushes
  -- The other futures are as they were, and this one makes way for the next.
  · intro other next begins
    show Awaits toVec next (Function.update futures task _ other)
    by_cases same : other = task
    · subst same
      rw [Function.update_self]
      exact .settle polls.went conveys.awaits begins
    · rw [Function.update_of_ne same]
      exact sound.awaits other next (others other same ▸ begins)
  · exact wire
  · intro first ended last split
    rcases occurrence_append (grown.symm.trans split) with ⟨middle, earlier, -⟩ | ⟨middle, rfl, later⟩
    · obtain ⟨bytes, framed, arrived⟩ := sound.finished first ended middle earlier
      exact ⟨bytes, framed, arrived.trans conveys.grows⟩
    · -- What finished was flushed, and nothing is enqueued after that in the same turn.
      rcases occurrence_append later with ⟨between, shown, -⟩ | ⟨between, rfl, after⟩
      · exact absurd (by simp [shown]) (send_unfinished send polled ended)
      · obtain ⟨isSent, flushes⟩ := ends ended (by simp [after])
        have nothing := conveys.flushed isSent flushes
        have silent : logOf between = [] := (List.append_eq_nil_iff.mp ((logOf_append _ _).symm.trans (after ▸ quiet))).1
        have all : logOf (s.events ++ (send.events polled ++ between)) = agent.log := by
          rw [Agent.log, grown]
          simp only [logOf_append, silent, quiet]
        refine ⟨tx.accepted, ?_, List.prefix_rfl⟩
        rw [all]
        rwa [nothing, List.append_nil] at wire
  · exact fun leaving => absurd rfl leaving
  · exact conveys.opens.trans sound.stands

theorem step {label : ServedStep σ} (sound : Sound toVec s) (moved : s.step w test toVec debug label = some t) :
    Sound toVec t := by
  cases label with
  | act action =>
    simp only [Served.step] at moved
    split at moved
    · exact sound.act ‹_› moved
    · cases moved
  | send task =>
    simp only [Served.step] at moved
    split at moved
    · exact sound.send ‹_› moved
    · cases moved
  | leave => exact sound.leave moved
  | exit =>
    simp only [Served.step] at moved
    split at moved
    · exact sound.finish rfl rfl moved
    · cases moved
  | writer state =>
    cases moved
    obtain ⟨accepted, unwritten, stands⟩ := disturbed_same s state
    constructor
    · exact sound.flushes
    · exact sound.awaits
    · rw [accepted, unwritten]
      exact sound.wire
    · rw [accepted]
      exact sound.finished
    · exact fun leaving => sound.isOver fun serving => leaving (by rw [serving]; rfl)
    · exact stands.mpr sound.stands

end Sound
theorem Sound.run {reader : ρ} {state : σ} {steps : List (ServedStep σ)}
    (run : execute (Served.step w test toVec debug) (.new reader state) steps = some s) : Sound toVec s :=
  invariant_execute (Sound toVec) (fun _ _ _ sound moved => sound.step moved) (.start reader state) run

/-! ## What the agent does about it -/

/-- A call of the end of main leaves the agent alone, or returns. -/
def Served.Leaves (s t : Served ρ σ) : Prop :=
  t.agent = s.agent ∨ s.agent.step .close = some t.agent ∧ ∃ accepted lost, t.leaving = .returned accepted lost

theorem Served.Leaves.reaches (leaves : Served.Leaves s t) : Reaches Agent.step s.agent t.agent := by
  rcases leaves with same | ⟨closed, -⟩
  · exact same ▸ .refl _ _
  · exact .after closed (.refl _ _)

theorem Served.finish_leaves {accepted lost : Bytes} (moved : s.finish accepted lost = some t) : Served.Leaves s t := by
  obtain ⟨agent, closed, rfl⟩ := Option.map_eq_some_iff.mp moved
  exact .inr ⟨closed, accepted, lost, rfl⟩

theorem Served.closed_leaves {closing : Closing (Recorded σ)} (moved : s.closed closing = some t) :
    Served.Leaves s t := by
  unfold Served.closed at moved
  split at moved
  · cases moved
    exact .inl rfl
  · exact Served.finish_leaves moved
  · split at moved
    · cases moved
      exact .inl rfl
    · exact Served.finish_leaves moved
  · cases moved
    exact .inl rfl

theorem Sound.pollable (sound : Sound toVec s) {task : Task} {send : Send}
    (sends : s.agent.phase.send? task = some send) : ∃ t, s.step w test toVec debug (.send task) = some t := by
  obtain ⟨polled, agent, tx, future, -, -, result⟩ := sound.polls w test debug sends
  refine ⟨_, Eq.trans ?_ result⟩
  simp only [Served.step, sends]

theorem Served.leave_leaves (moved : s.leave w = some t) : Served.Leaves s t := by
  obtain ⟨agent, tx, futures, leaving⟩ := s
  cases leaving with
  | serving | flushing | flushingOut =>
    simp only [Served.leave] at moved
    split at moved <;> cases moved <;> exact .inl rfl
  | shuttingOut writer =>
    simp only [Served.leave] at moved
    split at moved
    · cases moved
      exact .inl rfl
    · exact Served.finish_leaves moved
  | closing closing =>
    obtain ⟨turned, -, closed⟩ := Option.bind_eq_some_iff.mp moved
    have leaves := Served.closed_leaves closed
    exact leaves
  | background closing =>
    obtain ⟨turned, -, moved⟩ := Option.bind_eq_some_iff.mp moved
    split at moved
    · exact Served.finish_leaves moved
    · cases moved
      exact .inl rfl
  | returned accepted lost => cases moved

theorem Sound.reaches {label : ServedStep σ} (sound : Sound toVec s)
    (moved : s.step w test toVec debug label = some t) : Reaches Agent.step s.agent t.agent := by
  cases label with
  | act action =>
    simp only [Served.step] at moved
    split at moved
    · obtain ⟨agent, stepped, rfl⟩ := Option.map_eq_some_iff.mp moved
      exact .after stepped (.refl _ _)
    · cases moved
  | send task =>
    simp only [Served.step] at moved
    split at moved
    · obtain ⟨polled, agent, tx, future, stepped, -, result⟩ := sound.polls w test debug ‹_›
      obtain rfl := Option.some.inj (result.symm.trans moved)
      exact .after stepped (.refl _ _)
    · cases moved
  | leave => exact (Served.leave_leaves moved).reaches
  | exit =>
    simp only [Served.step] at moved
    split at moved
    · exact (Served.finish_leaves moved).reaches
    · cases moved
  | writer state =>
    cases moved
    exact .refl _ _

theorem Sound.onwards {steps : List (ServedStep σ)} (sound : Sound toVec s)
    (run : execute (Served.step w test toVec debug) s steps = some t) : Reaches Agent.step s.agent t.agent := by
  have matched (s : Served ρ σ) (label : ServedStep σ) (t : Served ρ σ) (agent : Agent ρ)
      (related : Sound toVec s ∧ s.agent = agent) (moved : s.step w test toVec debug label = some t) :
      ∃ agent', Reaches Agent.step agent agent' ∧ Sound toVec t ∧ t.agent = agent' := by
    obtain ⟨sound, rfl⟩ := related
    exact ⟨t.agent, sound.reaches moved, sound.step moved, rfl⟩
  obtain ⟨agent, reaches, -, rfl⟩ := simulates matched ⟨sound, rfl⟩ run
  exact reaches

theorem Sound.refines {reader : ρ} {state : σ} {steps : List (ServedStep σ)}
    (run : execute (Served.step w test toVec debug) (.new reader state) steps = some s) :
    Reaches Agent.step (.new reader) s.agent := (Sound.start reader state).onwards run

end

/-! ## Every run -/

/-- A child that exits at once. The writer takes the first message in two pieces,
the second of them together with the exit status. -/
def exiting : List (ServedStep (List (Poll (Except IoError Nat)))) :=
  [.act .receive, .act (.spawn (.ok ⟨7, [], []⟩)), .send .main, .act (.childExits 0),
    .act (.exit (.select false (.ready (.ok 0)))), .send .exit]

def hesitant : List (Poll (Except IoError Nat)) :=
  [.ready (.ok 20), .pending, .pending] ++ List.replicate 5 (.ready (.ok 100))

def echoServed : Served Connection (List (Poll (Except IoError Nat))) :=
  .new ⟨messageLines [.exec (request "echo")]⟩ hesitant

/-- An agent that sends through a real sending end does what an agent does whose
sends may come to anything, and a send that it awaits can always be polled. -/
theorem served_refines {ρ σ : Type} [MessageReader ρ] (w : AsyncWrite σ) (test : Bool)
    (toVec : Message → Except SerializeError Bytes) (debug : Message → String) (reader : ρ) (state : σ)
    (steps : List (ServedStep σ)) (s : Served ρ σ)
    (run : execute (Served.step w test toVec debug) (.new reader state) steps = some s) :
    Reaches Agent.step (.new reader) s.agent ∧
      ∀ task send, s.agent.phase.send? task = some send → ∃ t, s.step w test toVec debug (.send task) = some t :=
  ⟨Sound.refines run, fun _ _ sends => (Sound.run run).pollable sends⟩

theorem served_refines_exiting :
    ∃ s : Served Connection (List (Poll (Except IoError Nat))), (s.agent.phase.send? .exit).isSome = true ∧
      Reaches Agent.step (.new ⟨messageLines [.exec (request "echo")]⟩) s.agent ∧
      ∀ task send, s.agent.phase.send? task = some send →
        ∃ t, s.step scripted false messageText (fun _ => "") (.send task) = some t := by
  have completes : (execute (Served.step scripted false messageText (fun _ => "")) echoServed (exiting.take 5)).map
      (fun s => (s.agent.phase.send? .exit).isSome) = some true := by decide +kernel
  obtain ⟨s, run, sends⟩ := Option.map_eq_some_iff.mp completes
  exact ⟨s, sends, served_refines scripted false messageText (fun _ => "") _ hesitant (exiting.take 5) s run⟩

/-- What the connection has got and what is still to be written are the frames of
the messages enqueued. A task that has finished has said everything, and by
then the connection has got all that had been enqueued. -/
theorem finished_delivered {ρ σ : Type} [MessageReader ρ] (w : AsyncWrite σ) (test : Bool)
    (toVec : Message → Except SerializeError Bytes) (debug : Message → String) (reader : ρ) (state : σ)
    (steps : List (ServedStep σ)) (s : Served ρ σ)
    (run : execute (Served.step w test toVec debug) (.new reader state) steps = some s) :
    Framed toVec s.agent.log (s.accepted ++ s.unwritten) ∧
      ∀ first task rest, s.agent.events = first ++ .finished task :: rest →
        Whole task (saidBy task (logOf first)) ∧ ∃ bytes, Framed toVec (logOf first) bytes ∧ bytes <+: s.accepted := by
  have sound := Sound.run run
  obtain ⟨actions, reached⟩ := Sound.refines run
  refine ⟨sound.wire, fun first task rest split => ?_⟩
  exact ⟨parted_run reached first task rest split, sound.finished first task rest split⟩

theorem finished_delivered_exiting :
    ∃ s : Served Connection (List (Poll (Except IoError Nat))),
      .finished .exit ∈ s.agent.events ∧ s.agent.log = [.started ⟨7⟩, .exited ⟨0⟩] ∧
      Framed messageText s.agent.log (s.accepted ++ s.unwritten) ∧
      ∀ first task rest, s.agent.events = first ++ .finished task :: rest →
        Whole task (saidBy task (logOf first)) ∧
          ∃ bytes, Framed messageText (logOf first) bytes ∧ bytes <+: s.accepted := by
  have completes : (execute (Served.step scripted false messageText (fun _ => "")) echoServed exiting).map
      (fun s => (decide (.finished .exit ∈ s.agent.events), s.agent.log)) =
      some (true, [.started ⟨7⟩, .exited ⟨0⟩]) := by decide +kernel
  obtain ⟨s, run, reached⟩ := Option.map_eq_some_iff.mp completes
  obtain ⟨finished, log⟩ := Prod.mk.inj reached
  exact ⟨s, of_decide_eq_true finished, log,
    finished_delivered scripted false messageText (fun _ => "") _ hesitant exiting s run⟩

end MinimalVm.Agent
