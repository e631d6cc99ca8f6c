import MinimalVm.Agent.Forwarding

/-! The output that reaches the host, whatever else happens.

A task draws pieces from its pipe and says them in order. It may be told to close
the stream, it may fail to send, and the reads of the pipe may fail, but what it
has said by then are the first pieces of the stream, and it says that the stream
is closed only after all of them.
-/

set_option autoImplicit false

namespace MinimalVm.Agent

open MinimalVm.Semantics MinimalVm.Protocol MinimalVm.Io MinimalVm.Text

/-! ## Drawing from a pipe -/

def Pipe.left (this : Pipe) : Bytes := this.buffer ++ streamOf this.reads

/-- What a poll of a read comes to, and what it leaves. -/
inductive Draws (lineBuffered : Bool) (left : Bytes) : PollOutput → Bytes → Prop
  | waits : Draws lineBuffered left .pending left
  | fails {error : IoError} {left' : Bytes} : Draws lineBuffered left (.ready (.error error)) left'
  | returns {payload left' : Bytes} : payload ++ left' = left →
      (lineBuffered = true → cutAfter newline left = payload :: cutAfter newline left') →
      Draws lineBuffered left (.ready (.ok (some payload))) left'
  | ends : left = [] → Draws lineBuffered left (.ready (.ok none)) []

theorem Draws.pending {lineBuffered : Bool} {left left' : Bytes} (draws : Draws lineBuffered left .pending left') :
    left' = left := by
  cases draws
  rfl

theorem draws_line {lineBuffered : Bool} {buffer : Bytes} {pos : Nat} (found : position newline buffer = some pos)
    (more : Bytes) :
    Draws lineBuffered (buffer ++ more) (.ready (.ok (some (buffer.take (pos + 1))))) (buffer.drop (pos + 1) ++ more) := by
  obtain ⟨free, split⟩ := position_some found
  have same : buffer.take (pos + 1) ++ buffer.drop (pos + 1) = (buffer.take pos ++ [newline]) ++ buffer.drop (pos + 1) := by
    rw [List.take_append_drop, List.append_assoc]
    exact split
  have line : buffer.take (pos + 1) = buffer.take pos ++ [newline] := List.append_cancel_right same
  refine .returns ?_ fun _ => ?_
  · rw [← List.append_assoc, List.take_append_drop]
  · rw [line, ← cutAfter_line free, ← List.cons_append, ← List.append_assoc, ← split]

theorem draws_eof {lineBuffered : Bool} {buffer : Bytes} (free : lineBuffered = true → newline ∉ buffer) :
    Draws lineBuffered buffer (.ready (.ok (if buffer = [] then none else some buffer))) [] := by
  split
  · exact .ends ‹_›
  · exact .returns (List.append_nil buffer) fun lines => cutAfter_free (free lines) ‹_›

theorem readLine_draws (reads : List ReadEvent) (buffer : Bytes) :
    let polled := readLine reads buffer
    Draws true (buffer ++ streamOf reads) polled.1 (polled.2.2 ++ streamOf polled.2.1) := by
  induction reads generalizing buffer with
  | nil =>
    unfold readLine
    split
    · exact draws_line ‹_› _
    · rw [streamOf, List.append_nil]
      exact draws_eof fun _ => position_none.mp ‹_›
  | cons event reads ih =>
    unfold readLine
    split
    · exact draws_line ‹_› _
    · cases event with
      | pending => exact .waits
      | failed error => exact .fails
      | data chunk =>
        rw [streamOf, ← List.append_assoc]
        exact ih _

theorem readChunk_draws (reads : List ReadEvent) (buffer : Bytes) :
    let polled := readChunk reads buffer
    Draws false (buffer ++ streamOf reads) polled.1 (polled.2.2 ++ streamOf polled.2.1) := by
  cases reads with
  | nil =>
    rw [streamOf, List.append_nil]
    exact draws_eof fun lines => absurd lines Bool.false_ne_true
  | cons event reads =>
    cases event with
    | pending => exact .waits
    | failed error => exact .fails
    | data chunk => exact .returns (List.append_assoc _ _ _) fun lines => absurd lines Bool.false_ne_true

theorem readLine_stale (answered : Bool) (buffer more : Bytes) :
    let polled := readLine (if answered then [.failed badDescriptor] else [.pending]) buffer
    Draws true (buffer ++ more) polled.1 (polled.2.2 ++ more) := by
  cases answered with
  | true =>
    rw [if_pos rfl]
    unfold readLine
    split
    · exact draws_line ‹_› _
    · exact .fails
  | false =>
    rw [if_neg Bool.false_ne_true]
    unfold readLine
    split
    · exact draws_line ‹_› _
    · exact .waits

theorem Pipe.pollRead_draws (this : Pipe) (lineBuffered answered : Bool) :
    Draws lineBuffered this.left (this.pollRead lineBuffered answered).1
      (this.pollRead lineBuffered answered).2.left := by
  unfold pollRead
  cases closed : this.closed with
  | true =>
    cases lineBuffered with
    | true => exact readLine_stale answered this.buffer (streamOf this.reads)
    | false =>
      cases answered with
      | true => exact .fails
      | false => exact .waits
  | false =>
    cases lineBuffered with
    | true => exact readLine_draws this.reads this.buffer
    | false => exact readChunk_draws this.reads this.buffer

/-! ## Drawing in a selection -/

inductive BranchDraws (lineBuffered : Bool) (left : Bytes) : Branch → Bytes → Prop
  | waits : BranchDraws lineBuffered left .none left
  | data {read : Except IoError (Option Bytes)} {left' : Bytes} : Draws lineBuffered left (.ready read) left' →
      BranchDraws lineBuffered left (.data read) left'
  | close : BranchDraws lineBuffered left .close left

section
variable {ρ : Type} [MessageReader ρ] {output : Output} {lineBuffered : Bool}

theorem selectOutput_draws (pipe : Pipe) (disabled : Bool) (rx : RxLocal ρ) (readFirst answered : Bool) :
    let selected := selectOutput output lineBuffered pipe disabled rx readFirst answered
    BranchDraws lineBuffered pipe.left selected.branch selected.pipe.left := by
  have draws := pipe.pollRead_draws lineBuffered answered
  unfold selectOutput
  generalize pipe.pollRead lineBuffered answered = polled at draws
  obtain ⟨outcome, pipe'⟩ := polled
  cases readFirst with
  | true =>
    rw [if_pos rfl]
    cases outcome with
    | ready read => exact .data draws
    | pending =>
      have received := selectClose_polled output pipe' disabled rx
      have kept : pipe'.left = pipe.left := draws.pending
      dsimp only
      generalize selectClose output pipe' disabled rx = selected at received
      cases received with
      | passed overhears => exact kept ▸ .waits
      | closes => exact kept ▸ .close
  | false =>
    rw [if_neg Bool.false_ne_true]
    have received := selectClose_polled output pipe disabled rx
    dsimp only
    generalize selectClose output pipe disabled rx = selected at received
    cases received with
    | closes => exact .close
    | passed overhears =>
      cases outcome with
      | ready read => exact .data draws
      | pending =>
        have kept : pipe'.left = pipe.left := draws.pending
        exact kept ▸ .waits

end

/-! ## The pieces of a stream -/

/-- Some payloads are the first pieces of a stream, and this is left of it. -/
structure Pieces (lineBuffered : Bool) (stream : Bytes) (payloads : List Bytes) (left : Bytes) : Prop where
  whole : payloads.flatten ++ left = stream
  lines : lineBuffered = true → payloads ++ cutAfter newline left = cutAfter newline stream

/-- What is said about a stream are its first pieces, and it is closed after the
last of them. -/
inductive Drawn (output : Output) (lineBuffered : Bool) (stream : Bytes) : List Message → Prop
  | part {payloads : List Bytes} : payloads.flatten <+: stream →
      (lineBuffered = true → payloads <+: cutAfter newline stream) →
      Drawn output lineBuffered stream (streamed output payloads)
  | whole {payloads : List Bytes} : payloads.flatten = stream →
      (lineBuffered = true → payloads = cutAfter newline stream) →
      Drawn output lineBuffered stream (streamed output payloads ++ [output.message .closed])

section
variable {output : Output} {lineBuffered : Bool} {stream left left' payload : Bytes} {payloads : List Bytes}

theorem Pieces.none (lineBuffered : Bool) (stream : Bytes) : Pieces lineBuffered stream [] stream := ⟨rfl, fun _ => rfl⟩

theorem Pieces.snoc (pieces : Pieces lineBuffered stream payloads left) (split : payload ++ left' = left)
    (cut : lineBuffered = true → cutAfter newline left = payload :: cutAfter newline left') :
    Pieces lineBuffered stream (payloads ++ [payload]) left' where
  whole := by
    rw [List.flatten_append, List.flatten_singleton, List.append_assoc, split]
    exact pieces.whole
  lines lines := by
    rw [List.append_assoc, List.singleton_append, ← cut lines]
    exact pieces.lines lines

theorem Pieces.part (pieces : Pieces lineBuffered stream payloads left) :
    Drawn output lineBuffered stream (streamed output payloads) :=
  .part ⟨left, pieces.whole⟩ fun lines => ⟨_, pieces.lines lines⟩

theorem Pieces.all (pieces : Pieces lineBuffered stream payloads []) :
    Drawn output lineBuffered stream (streamed output payloads ++ [output.message .closed]) :=
  .whole ((List.append_nil _).symm.trans pieces.whole) fun lines => (List.append_nil _).symm.trans (pieces.lines lines)

theorem Drawn.of_start {said heard : List Message} (drawn : Drawn output lineBuffered stream said)
    (isPrefix : heard <+: said) : Drawn output lineBuffered stream heard := by
  have parts {payloads : List Bytes} {heard : List Message} (isPrefix : heard <+: streamed output payloads)
      (whole : payloads.flatten <+: stream) (lines : lineBuffered = true → payloads <+: cutAfter newline stream) :
      Drawn output lineBuffered stream heard := by
    have taken : payloads.take heard.length <+: payloads := List.take_prefix _ _
    obtain ⟨rest, split⟩ := taken
    have same : heard = streamed output (payloads.take heard.length) := by
      rw [streamed, List.map_take]
      exact List.prefix_iff_eq_take.mp isPrefix
    rw [same]
    refine .part ?_ fun isLines => (List.take_prefix _ _).trans (lines isLines)
    refine List.IsPrefix.trans ⟨rest.flatten, ?_⟩ whole
    rw [← List.flatten_append, split]
  cases drawn with
  | part whole lines => exact parts isPrefix whole lines
  | whole all lines =>
    rcases List.prefix_concat_iff.mp isPrefix with rfl | shorter
    · exact .whole all lines
    · exact parts shorter (all ▸ List.prefix_rfl) fun isLines => lines isLines ▸ List.prefix_rfl

end

/-! ## The task -/

/-- A task has said the pieces that it has drawn, but for what it holds. -/
def OutputTask.Draws (output : Output) (lineBuffered : Bool) (stream : Bytes) : OutputTask → List Message → Prop
  | .reading pipe _, said => ∃ payloads, Pieces lineBuffered stream payloads pipe.left ∧ said = streamed output payloads
  | .sending pipe send, said => ∃ payloads payload, Pieces lineBuffered stream (payloads ++ [payload]) pipe.left ∧
      send.msg = output.message (.data payload) ∧ said = streamed output payloads ++ send.enqueued
  | .finishing send, said => ∃ payloads, Pieces lineBuffered stream payloads [] ∧
      send.msg = output.message .closed ∧ said = streamed output payloads ++ send.enqueued
  | .ended _, said => Drawn output lineBuffered stream said

section
variable {ρ : Type} [MessageReader ρ] {output : Output} {rx : RxLocal ρ} {lineBuffered : Bool} {stream : Bytes}
  {said : List Message}

omit [MessageReader ρ] in
theorem OutputTask.Draws.drawn {task : OutputTask} (draws : task.Draws output lineBuffered stream said) :
    Drawn output lineBuffered stream said := by
  cases task with
  | reading pipe disabled =>
    obtain ⟨payloads, pieces, rfl⟩ := draws
    exact pieces.part
  | sending pipe send =>
    obtain ⟨payloads, payload, pieces, carries, rfl⟩ := draws
    refine pieces.part.of_start ?_
    rw [streamed_snoc, ← carries]
    rcases send.enqueued_cases with none | whole
    · exact ⟨[send.msg], by rw [none, List.append_nil]⟩
    · exact ⟨[], by rw [whole, List.append_nil]⟩
  | finishing send =>
    obtain ⟨payloads, pieces, closes, rfl⟩ := draws
    rcases send.enqueued_cases with none | whole
    · rw [none, List.append_nil]
      exact pieces.part
    · rw [whole, closes]
      exact pieces.all
  | ended result => exact draws

omit [MessageReader ρ] in
theorem handleOutput_draws {pipe : Pipe} {selected : Selection ρ} {payloads : List Bytes}
    (pieces : Pieces lineBuffered stream payloads pipe.left) (silent : logOf selected.events = [])
    (draws : BranchDraws lineBuffered pipe.left selected.branch selected.pipe.left) :
    let turned := handleOutput output selected
    turned.task.Draws output lineBuffered stream (streamed output payloads ++ logOf turned.events) := by
  obtain ⟨branch, pipe', disabled, rx, events⟩ := selected
  dsimp only at silent draws
  generalize same : pipe'.left = left at draws
  cases draws with
  | waits =>
    refine ⟨payloads, same ▸ pieces, ?_⟩
    show _ ++ logOf events = _
    rw [silent, List.append_nil]
  | data draws =>
    cases draws with
    | @fails error =>
      show Drawn output lineBuffered stream (_ ++ logOf (events ++ [.failed (.output output) (.io error)]))
      rw [logOf_append, silent, logOf_failed, logOf_nil, List.append_nil, List.append_nil]
      exact pieces.part
    | @returns payload _ split cut =>
      -- The payload is drawn now and said when its send is polled.
      refine ⟨payloads, payload, same ▸ pieces.snoc split cut, rfl, ?_⟩
      show _ ++ logOf events = _
      rw [silent]
      rfl
    | ends none =>
      refine ⟨payloads, none ▸ pieces, rfl, ?_⟩
      show _ ++ logOf events = _
      rw [silent]
      rfl
  | close =>
    have quiet (more : List Event) (none : logOf more = []) :
        logOf (events ++ [.closeHandled output pipe'.buffer] ++ more) = [] := by
      rw [logOf_append, logOf_append, silent, none]
      rfl
    simp only [handleOutput, Pipe.close]
    cases pipe'.closed with
    | true =>
      show Drawn output lineBuffered stream (_ ++ logOf (_ ++ [.failed (.output output) (.closing output "EBADF")]))
      rw [quiet _ rfl, List.append_nil]
      exact pieces.part
    | false =>
      refine ⟨payloads, same ▸ pieces, ?_⟩
      show _ ++ logOf (events ++ [.closeHandled output pipe'.buffer]) = _
      rw [← List.append_nil (events ++ _), quiet [] rfl, List.append_nil]

theorem OutputTask.step_draws {task : OutputTask} {turn : OutputTurn} {turned : Turn OutputTask ρ}
    (moved : task.step output lineBuffered rx turn = some turned) (before : task.Draws output lineBuffered stream said) :
    turned.task.Draws output lineBuffered stream (said ++ logOf turned.events) := by
  cases OutputTask.step_turned moved with
  | select pipe disabled readFirst answered =>
    obtain ⟨payloads, pieces, rfl⟩ := before
    have silent := (selectOutput_selected output lineBuffered pipe disabled rx readFirst answered).overhears.quiet
    exact handleOutput_draws pieces silent (selectOutput_draws pipe disabled rx readFirst answered)
  | sends pipe send takes =>
    obtain ⟨payloads, payload, pieces, carries, rfl⟩ := before
    refine ⟨payloads, payload, pieces, carries, ?_⟩
    rw [logOf_send, List.append_assoc, ← Send.poll_enqueued]
  | sendFailed pipe send takes error =>
    obtain ⟨payloads, payload, pieces, carries, rfl⟩ := before
    have draws : (OutputTask.sending pipe (send.poll (.failed takes error))).Draws output lineBuffered stream _ :=
      ⟨payloads, payload, pieces, carries, rfl⟩
    show Drawn output lineBuffered stream (_ ++ logOf (send.events _ ++ [.failed _ _]))
    rw [logOf_append, logOf_send, logOf_failed, logOf_nil, List.append_nil, List.append_assoc, ← Send.poll_enqueued]
    exact draws.drawn
  | sent pipe send =>
    obtain ⟨payloads, payload, pieces, carries, rfl⟩ := before
    refine ⟨payloads ++ [payload], pieces, ?_⟩
    rw [logOf_send, List.append_assoc, send.sent_enqueued, carries, streamed_snoc]
  | finishes send takes =>
    obtain ⟨payloads, pieces, closes, rfl⟩ := before
    refine ⟨payloads, pieces, closes, ?_⟩
    rw [logOf_send, List.append_assoc, ← Send.poll_enqueued]
  | finishFailed send takes error =>
    obtain ⟨payloads, pieces, closes, rfl⟩ := before
    have draws : (OutputTask.finishing (send.poll (.failed takes error))).Draws output lineBuffered stream _ :=
      ⟨payloads, pieces, closes, rfl⟩
    show Drawn output lineBuffered stream (_ ++ logOf (send.events _ ++ [.failed _ _]))
    rw [logOf_append, logOf_send, logOf_failed, logOf_nil, List.append_nil, List.append_assoc, ← Send.poll_enqueued]
    exact draws.drawn
  | finished send =>
    obtain ⟨payloads, pieces, closes, rfl⟩ := before
    show Drawn output lineBuffered stream (_ ++ logOf (send.events .sent ++ [.finished (.output output)]))
    rw [logOf_append, logOf_send, logOf_finished, logOf_nil, List.append_nil, List.append_assoc, send.sent_enqueued, closes]
    exact pieces.all

end

/-! ## The agent -/

def Phase.Draws (output : Output) (lineBuffered : Bool) (stream : Bytes) (said : List Message) : Phase → Prop
  | .receiving | .spawning _ => False
  | .starting mode _ child _ => mode = lineBuffered ∧ streamOf (child.pipe output) = stream ∧ said = []
  | .running tasks => tasks.lineBuffered = lineBuffered ∧ (tasks.output output).Draws output lineBuffered stream said
  | .failing _ _ | .closing _ | .done _ => Drawn output lineBuffered stream said

section
variable {ρ : Type} [MessageReader ρ] {output : Output} {lineBuffered : Bool} {stream : Bytes} {said : List Message}
  {s t : Agent ρ} {action : Action}

theorem drawn_nothing (output : Output) (lineBuffered : Bool) (stream : Bytes) : Drawn output lineBuffered stream [] :=
  (Pieces.none lineBuffered stream).part

theorem Phase.Draws.drawn {phase : Phase} (before : phase.Draws output lineBuffered stream said) :
    Drawn output lineBuffered stream said := by
  cases phase with
  | receiving => exact before.elim
  | spawning exec => exact before.elim
  | starting mode process child send =>
    obtain ⟨-, -, rfl⟩ := before
    exact drawn_nothing output lineBuffered stream
  | running tasks => exact before.2.drawn
  | failing error send => exact before
  | closing status => exact before
  | done status => exact before

theorem AgentMove.draws_beside (move : AgentMove s action t) (other : action.task ≠ .output output)
    (before : s.phase.Draws output lineBuffered stream said) : t.phase.Draws output lineBuffered stream said := by
  have drawn := before.drawn
  cases move with
  | receives rx phase => exact before
  | childExits status alive => exact before
  | requested rx exec phase =>
    rw [phase] at before
    exact before.elim
  | spawned child phase =>
    rw [phase] at before
    exact before.elim
  | starts takes phase =>
    rw [phase] at before
    exact before
  | @started mode process child send phase =>
    rw [phase] at before
    obtain ⟨same, rfl, rfl⟩ := before
    have starts : (Tasks.new mode process child).output output = .reading (.new (child.pipe output)) false := by
      cases output <;> rfl
    refine ⟨same, ?_⟩
    rw [starts]
    exact ⟨[], .none lineBuffered _, rfl⟩
  | exit turned phase allowed stepped =>
    rw [phase] at before
    cases output <;> exact before
  | stdin turned phase stepped =>
    rw [phase] at before
    cases output <;> exact before
  | @output tasks speaks turn turned phase stepped =>
    rw [phase] at before
    have apart : speaks ≠ output := fun same => other (congrArg Task.output same)
    obtain ⟨same, draws⟩ := before
    refine ⟨?_, ?_⟩
    · cases speaks <;> exact same
    · rw [Tasks.setOutput_other _ _ apart]
      exact draws
  | refuses | disconnected | spawnFailed | startFailed => exact drawn
  | joined | joinFailed | reports | reported | reportFailed | closes => exact drawn

structure Drawing (output : Output) (lineBuffered : Bool) (stream : Bytes) (s : Agent ρ) : Prop where
  said : Converses s.events s.phase
  draws : s.phase.Draws output lineBuffered stream (saidBy (.output output) s.log)

theorem Drawing.step (before : Drawing output lineBuffered stream s) (moved : s.step action = some t) :
    Drawing output lineBuffered stream t := by
  have move := Agent.step_move moved
  obtain ⟨more, grown, doneBy⟩ := move.doneBy before.said
  have log : t.log = s.log ++ logOf more := (congrArg logOf grown).trans (logOf_append _ _)
  refine ⟨move.converses before.said, ?_⟩
  rw [log, saidBy_append]
  by_cases own : action.task = .output output
  · have ours : saidBy (.output output) (logOf more) = logOf more := saidBy_own (own ▸ doneBy.spoken)
    rw [ours]
    cases move with
    | @output tasks speaks turn turned phase stepped =>
      cases (Task.output.inj own : speaks = output)
      have same : more = turned.events := (List.append_cancel_left grown).symm
      subst same
      have draws := before.draws
      rw [phase] at draws
      obtain ⟨rfl, draws⟩ := draws
      show _ ∧ ((tasks.setOutput turned.task output).output output).Draws _ _ _ _
      rw [Tasks.setOutput_self]
      refine ⟨?_, OutputTask.step_draws stepped draws⟩
      cases output <;> rfl
    | _ => cases own
  · rw [saidBy_other doneBy.spoken own, List.append_nil]
    exact move.draws_beside own before.draws

theorem Drawing.start {exec : Exec} {child : SpawnedChild} (said : Converses s.events s.phase)
    (phase : s.phase = .spawning exec) (spawned : s.step (.spawn (.ok child)) = some t) :
    Drawing output (exec.lineBufferedIo.getD true) (streamOf (child.pipe output)) t := by
  have move := Agent.step_move spawned
  have started := move.converses said
  simp only [Agent.step, phase, Option.some.injEq] at spawned
  subst spawned
  refine ⟨started, rfl, rfl, ?_⟩
  rw [phase] at said
  have log : (s.handleSpawn exec (.ok child)).log = [] :=
    (logOf_append s.events [.spawned child.pid]).trans ((List.append_nil _).trans said)
  rw [log]
  rfl

theorem drawing_run {reader : ρ} {before : List Action} {exec : Exec} {child : SpawnedChild} {u : Agent ρ}
    (first : execute Agent.step (.new reader) before = some u) (phase : u.phase = .spawning exec)
    (spawned : u.step (.spawn (.ok child)) = some t) (rest : Reaches Agent.step t s) (output : Output) :
    Drawing output (exec.lineBufferedIo.getD true) (streamOf (child.pipe output)) s := by
  obtain ⟨after, later⟩ := rest
  exact invariant_execute _ (fun _ _ _ before moved => before.step moved) (.start (converses_run first) phase spawned) later

end

end MinimalVm.Agent
