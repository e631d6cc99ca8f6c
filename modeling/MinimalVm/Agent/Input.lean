import MinimalVm.Agent.Lines
import MinimalVm.Agent.Mail
import MinimalVm.Io.LineParser

/-! What the child reads is what the host wrote.

The stdin task takes one message after another and writes it out before it
asks for the next. What has been written, what is in its hands and what its
mail still holds always make up the input that the host sent, although the
other tasks may read that mail off the connection and the child may accept it
in pieces.
-/

set_option autoImplicit false

namespace MinimalVm.Agent

open MinimalVm.Semantics MinimalVm.Protocol MinimalVm.Io MinimalVm.Text

/-- The data of a stream up to its first close, or all of it. -/
def dataOf : List Stdio → Bytes
  | [] | .closed :: _ => []
  | .data bytes :: rest => bytes ++ dataOf rest

/-- The input that a host sends for the child. -/
def childInput (msgs : List Message) : Bytes := dataOf (msgs.filterMap Message.stdin?)

def Event.bytes : Event → Bytes
  | .written bytes => bytes
  | _ => []

def writtenOf (events : List Event) : Bytes := events.flatMap Event.bytes

/-! ## The input as mail -/

def stdioOf : Stdin (Option Bytes) → Stdio
  | ⟨some bytes⟩ => .data bytes
  | ⟨none⟩ => .closed

theorem stdin?_mail (msgs : List Message) :
    msgs.filterMap Message.stdin? = (mail (Stdin (Option Bytes)) msgs).map stdioOf := by
  induction msgs with
  | nil => rfl
  | cons msg rest ih =>
    rcases msg with _ | _ | ⟨_ | bytes⟩ | _ | _ | _ | _ | _ | _ <;> first | exact ih | exact congrArg (_ :: ·) ih

theorem childInput_mail (msgs : List Message) :
    childInput msgs = dataOf ((mail (Stdin (Option Bytes)) msgs).map stdioOf) :=
  congrArg dataOf (stdin?_mail msgs)

/-! ## What is written -/

@[simp] theorem writtenOf_append (first rest : List Event) :
    writtenOf (first ++ rest) = writtenOf first ++ writtenOf rest := List.flatMap_append

theorem writtenOf_quiet {events : List Event} (quiet : ∀ event ∈ events, event.bytes = []) :
    writtenOf events = [] := List.flatMap_eq_nil_iff.mpr quiet

theorem writtenOf_others {events : List Event} (others : ¬ Shows (Event.isOf .stdin) events) :
    writtenOf events = [] := by
  apply writtenOf_quiet
  intro event member
  cases event with
  | written bytes => exact absurd ⟨_, member, rfl⟩ others
  | _ => rfl

@[simp] theorem writtenOf_send (send : Send) (polled : SendPoll) : writtenOf (send.events polled) = [] :=
  writtenOf_others (isOf_send send polled)

@[simp] theorem writtenOf_malformed (task : Task) (error : RecvError) : writtenOf (malformed task error) = [] := by
  cases error <;> rfl

@[simp] theorem writtenOf_ending (task : Task) (result : Ending) : writtenOf [ending task result] = [] := by
  obtain error | _ := result <;> rfl

theorem writtenOf_last (send : Send) (polled : SendPoll) (result : Ending) :
    writtenOf (send.events polled ++ [ending .stdin result]) = [] := by
  rw [writtenOf_append, writtenOf_send, writtenOf_ending]
  rfl

/-! ## The stdin task -/

variable {input written left : Bytes}

def StdinTask.Feeds (input written left : Bytes) : StdinTask → Prop
  | .receiving => written ++ left = input
  | .writing bytes => written ++ bytes ++ left = input
  | .sending _ => written = input
  | .ended _ => written <+: input

theorem StdinTask.Feeds.begins {task : StdinTask} (feeds : task.Feeds input written left) : written <+: input := by
  cases task with
  | receiving => exact ⟨left, feeds⟩
  | writing bytes => exact ⟨bytes ++ left, (List.append_assoc _ _ _).symm.trans feeds⟩
  | sending send =>
    cases feeds
    exact List.prefix_refl input
  | ended result => exact feeds

theorem recvStdin_feeds {rx : RxLocal Connection} (feeds : written ++ childInput rx.messages = input) :
    let polled := rx.pollRecv (Stdin (Option Bytes))
    let turned := handleStdin polled.2 polled.1
    turned.task.Feeds input (written ++ writtenOf turned.events) (childInput turned.rx.messages) := by
  intro polled turned
  have mails : mail (Stdin (Option Bytes)) rx.messages = delivered polled.1 ++ mail _ polled.2.messages :=
    rx.pollRecv_mail
  have ended (eof : polled.1 = .ready (.ok none)) : mail (Stdin (Option Bytes)) rx.messages = [] :=
    RxLocal.exhausted_mail (rx.pollRecv_eof.mp eof)
  rw [childInput_mail, mails] at feeds
  subst turned
  generalize polled = result at mails ended feeds
  obtain ⟨outcome, rx'⟩ := result
  rcases outcome with _ | error | _ | ⟨_ | bytes⟩
  · show written ++ [] ++ childInput rx'.messages = input
    rw [List.append_nil, childInput_mail]
    exact feeds
  · have whole : writtenOf (handleStdin rx' (.ready (.error error))).events = [] := by
      simp [handleStdin, endStdin]
    rw [whole, List.append_nil]
    exact ⟨_, feeds⟩
  · show written ++ [] = input
    have empty : mail (Stdin (Option Bytes)) rx'.messages = [] := mails.symm.trans (ended rfl)
    rw [← feeds, empty]
    rfl
  · exact feeds
  · show written ++ [] ++ bytes ++ childInput rx'.messages = input
    rw [List.append_nil, List.append_assoc, childInput_mail]
    exact feeds

theorem writeStdin_feeds {bytes : Bytes} {rx : RxLocal Connection} (answer : Poll (Except IoError Nat))
    (feeds : written ++ bytes ++ childInput rx.messages = input) :
    let turned := writeStdin bytes rx answer
    turned.task.Feeds input (written ++ writtenOf turned.events) (childInput turned.rx.messages) := by
  intro turned
  have gaveUp (error : AgentError) : written ++ writtenOf [ending .stdin (.error error)] <+: input := by
    rw [writtenOf_ending, List.append_nil]
    exact ⟨bytes ++ childInput rx.messages, (List.append_assoc _ _ _).symm.trans feeds⟩
  subst turned
  unfold writeStdin
  split
  · rename_i empty
    rw [empty, List.append_nil] at feeds
    exact (congrArg (· ++ childInput rx.messages) (List.append_nil written)).trans feeds
  · split
    · exact (congrArg (· ++ bytes ++ childInput rx.messages) (List.append_nil written)).trans feeds
    · exact gaveUp _
    · rename_i n
      split
      · exact gaveUp _
      · show written ++ (bytes.take n ++ []) ++ bytes.drop n ++ childInput rx.messages = input
        rw [List.append_nil, List.append_assoc written, List.take_append_drop]
        exact feeds

theorem StdinTask.step_feeds {task : StdinTask} {rx : RxLocal Connection} {turn : StdinTurn}
    {turned : Turn StdinTask Connection} (moved : task.step rx turn = some turned)
    (before : task.Feeds input written (childInput rx.messages)) :
    turned.task.Feeds input (written ++ writtenOf turned.events) (childInput turned.rx.messages) := by
  cases StdinTask.step_turned moved with
  | recv => exact recvStdin_feeds before
  | write bytes answer => exact writeStdin_feeds answer before
  | sends send takes =>
    have closed : written = input := before
    show written ++ writtenOf (send.events _) = input
    rw [writtenOf_send, List.append_nil, closed]
  | sendFailed send takes error =>
    have closed : written = input := before
    have kept : written ++ writtenOf (send.events (.failed takes error) ++
        [ending .stdin (.error (.send error))]) = input := by
      rw [writtenOf_last, List.append_nil, closed]
    exact kept ▸ List.prefix_refl input
  | sent send =>
    have closed : written = input := before
    have kept : written ++ writtenOf (send.events .sent ++ [ending .stdin (.ok ())]) = input := by
      rw [writtenOf_last, List.append_nil, closed]
    exact kept ▸ List.prefix_refl input

theorem StdinMove.spoken_whole {task task' : StdinTask} {events : List Event} (move : StdinMove task events task')
    (feeds : task.Feeds input written left) (spoke : logOf events ≠ []) :
    written = input ∧ writtenOf events = [] := by
  cases move with
  | recvWaits | data bytes | closes | wrote | writeWaits | writes n | writeFailed error nonempty =>
    exact absurd rfl spoke
  | recvFailed error => simp at spoke
  | sends takes => exact ⟨feeds, writtenOf_send _ _⟩
  | sent => exact ⟨feeds, writtenOf_last _ _ (.ok ())⟩
  | sendFailed takes error => exact ⟨feeds, writtenOf_last _ _ (.error (.send error))⟩

/-! ## The agent -/

def Phase.Feeds (input written left : Bytes) : Phase → Prop
  | .receiving | .spawning _ | .starting _ _ _ _ => written ++ left = input
  | .running tasks => tasks.stdin.Feeds input written left
  | .failing _ _ | .closing _ | .done _ => written <+: input

theorem Phase.Feeds.begins {phase : Phase} (feeds : phase.Feeds input written left) : written <+: input := by
  cases phase with
  | receiving => exact ⟨left, feeds⟩
  | spawning exec => exact ⟨left, feeds⟩
  | starting lineBuffered process child send => exact ⟨left, feeds⟩
  | running tasks => exact StdinTask.Feeds.begins feeds
  | failing error send => exact feeds
  | closing status => exact feeds
  | done status => exact feeds

theorem AgentMove.feeds {ρ : Type} [MessageReader ρ] {s t : Agent ρ} {action : Action} (move : AgentMove s action t)
    (other : action.task ≠ .stdin) (feeds : s.phase.Feeds input written left) :
    t.phase.Feeds input written left := by
  have fails : written <+: input := feeds.begins
  cases move with
  | receives rx phase => exact feeds
  | childExits status alive => exact feeds
  | requested rx exec phase =>
    rw [phase] at feeds
    exact feeds
  | spawned child phase =>
    rw [phase] at feeds
    exact feeds
  | starts takes phase =>
    rw [phase] at feeds
    exact feeds
  | started phase =>
    rw [phase] at feeds
    exact feeds
  | exit turned phase allowed stepped =>
    rw [phase] at feeds
    exact feeds
  | stdin turned phase stepped => exact absurd rfl other
  | @output tasks output turn turned phase stepped =>
    rw [phase] at feeds
    show (tasks.setOutput turned.task output).stdin.Feeds input written left
    rw [Tasks.setOutput_stdin]
    exact feeds
  | refuses | disconnected | spawnFailed | startFailed => exact fails
  | joined | joinFailed | reports | reported | reportFailed | closes => exact fails

structure Fed (input : Bytes) (s : Agent Connection) : Prop where
  said : Converses s.events s.phase
  feeds : s.phase.Feeds input (writtenOf s.events) (childInput s.rx.messages)
  closed : ∀ first rest, s.events = first ++ .enqueued (.stdin .closed) :: rest → writtenOf first = input

variable {s t : Agent Connection} {action : Action}

theorem Fed.step (before : Fed input s) (moved : s.step action = some t) : Fed input t := by
  have move := Agent.step_move moved
  obtain ⟨more, grown, doneBy⟩ := move.doneBy before.said
  have said := move.converses before.said
  by_cases own : action.task = .stdin
  · -- The stdin task is at work, and it has closed only if nothing is left.
    cases move with
    | @stdin tasks turn turned phase stepped =>
      have feeds := before.feeds
      rw [phase] at feeds
      have same : more = turned.events := (List.append_cancel_left grown).symm
      refine ⟨said, ?_, fun first rest split => ?_⟩
      · rw [grown, writtenOf_append, same]
        exact StdinTask.step_feeds stepped feeds
      · rw [grown] at split
        rcases occurrence_append split with ⟨middle, earlier, -⟩ | ⟨middle, rfl, later⟩
        · exact before.closed first middle earlier
        · have spoke : logOf turned.events ≠ [] := by
            rw [← same, later, logOf_append]
            simp [logOf, Event.message?]
          obtain ⟨whole, quiet⟩ := (StdinTask.step_move stepped).spoken_whole feeds spoke
          rw [← same, later, writtenOf_append] at quiet
          rw [writtenOf_append, (List.append_eq_nil_iff.mp quiet).1, List.append_nil, whole]
    | _ => cases own
  -- Another part is at work: nothing is written, and the mail of the task stays.
  · have quiet : writtenOf more = [] := writtenOf_others (doneBy.about .stdin own)
    have mails : childInput t.rx.messages = childInput s.rx.messages := by
      rw [childInput_mail, childInput_mail]
      exact congrArg (fun mail => dataOf (mail.map stdioOf)) (Agent.step_mail moved own)
    refine ⟨said, ?_, fun first rest split => ?_⟩
    · rw [grown, writtenOf_append, quiet, List.append_nil, mails]
      exact move.feeds own before.feeds
    · rw [grown] at split
      rcases occurrence_append split with ⟨middle, earlier, -⟩ | ⟨middle, rfl, later⟩
      · exact before.closed first middle earlier
      · -- Nobody else says that the input is closed.
        have spoke : .stdin .closed ∈ logOf more := by
          rw [later, logOf_append]
          exact List.mem_append_right _ List.mem_cons_self
        exact absurd (Option.some.inj (doneBy.spoken _ spoke)).symm own

theorem Fed.new (connection : Connection) :
    Fed (childInput (RxLocal.new connection).messages) (Agent.new connection) where
  said := converses_new connection
  feeds := rfl
  closed first rest split := by simp [Agent.new] at split

/-- At any time the bytes written to the child begin the input that the host has
sent for it, and they are all of it when the stream is reported closed. -/
theorem input_fidelity (parse : Bytes → Except ParseError Message) (reader : List ReadEvent)
    (actions : List Action) (s : Agent (MsgReader parse))
    (run : execute Agent.step (.new (.new reader)) actions = some s) :
    let input := childInput (wellFormed ((segments newline (streamOf reader)).map parse))
    writtenOf s.events <+: input ∧
      ∀ first rest, s.events = first ++ .enqueued (.stdin .closed) :: rest → writtenOf first = input := by
  intro input
  let lines : Connection := (MsgReader.new reader : MsgReader parse).toConnection
  have overLines : execute Agent.step (.new lines) actions = some s.toLines := by
    have same := Agent.execute_toLines (.new (.new reader : MsgReader parse)) actions
    rw [run] at same
    exact same
  have start : Fed input (.new lines) := by
    have carries : (RxLocal.new lines).messages = wellFormed ((segments newline (streamOf reader)).map parse) :=
      RxLocal.messages_new reader
    show Fed (childInput (wellFormed _)) _
    rw [← carries]
    exact Fed.new lines
  have holds := invariant_execute (Fed input) (fun _ _ _ before moved => before.step moved) start overLines
  exact ⟨holds.feeds.begins, holds.closed⟩

def typed : List Message :=
  [.exec (request "cat"), .stdin (.data [104]), .kill ⟨1⟩, .stdin (.data [105, 10]), .stdin .closed,
    .stdin (.data [33])]

def typing : List ReadEvent :=
  let stream := framesOf (typed.map Message.text)
  [.data ⟨stream.take 60, by decide +kernel⟩, .pending, .data ⟨stream.drop 60, by decide +kernel⟩]

def feeding : List Action :=
  [.receive, .spawn (.ok ⟨7, [], []⟩), .start .sent, .exit (.select true .pending), .exit (.select true .pending),
    .stdin .recv, .stdin (.write (.ready (.ok 1))), .stdin (.write .pending), .stdin .recv,
    .stdin (.write (.ready (.ok 1))), .output .stdout (.select false false), .stdin (.write (.ready (.ok 1))),
    .stdin (.write .pending), .stdin .recv, .stdin (.send .sent)]

theorem input_fidelity_typing :
    ∃ s : Agent (MsgReader (parseWith (knownText typed))), writtenOf s.events = [104, 105, 10] ∧
      let input := childInput (wellFormed ((segments newline (streamOf typing)).map (parseWith (knownText typed))))
      writtenOf s.events <+: input ∧
        ∀ first rest, s.events = first ++ .enqueued (.stdin .closed) :: rest → writtenOf first = input := by
  have completes : (execute Agent.step (.new (.new typing : MsgReader (parseWith (knownText typed)))) feeding).map
      (fun s => writtenOf s.events) = some [104, 105, 10] := by
    decide +kernel
  obtain ⟨s, run, whole⟩ := Option.map_eq_some_iff.mp completes
  exact ⟨s, whole, input_fidelity _ typing feeding s run⟩

end MinimalVm.Agent
