import MinimalVm.Agent.Hearing
import MinimalVm.Io.Sorting

/-! What receivers of one type at the host get of the agent.

The host shares its receiving end among receivers of several types, which are
polled and dropped in any order. If no message is of two of these types, those of
one type get what the agent has said of that type, in its order, whoever else has
read it off the connection. Receivers of types that overlap, such as the bytes of
an output and all of its messages, take each other's mail.
-/

set_option autoImplicit false

namespace MinimalVm.Agent

open MinimalVm.Semantics MinimalVm.Protocol MinimalVm.Json MinimalVm.Text MinimalVm.Io

/-- From the tasks of the agent to receivers of a type at the host that is kept
apart from the other types polled: they get the first of what was said to them. If
the host has read what the connection has got and a receiver of this very type was
told of the end, they have got everything that was said to them by the time a task
finished, and if nothing is left to be written they have got all of it. -/
theorem host_receives {ρ σ : Type} [MessageReader ρ] (w : AsyncWrite σ) (test : Bool) (encoding : Json → Bytes)
    (debug : Message → String) (fromSlice : Bytes → Except ParseError Json) (reader : ρ) (state : σ)
    (steps : List (ServedStep σ)) (s : Served ρ σ)
    (compact : ∀ m ∈ s.agent.log, CompactText m.encode (encoding m.encode))
    (oneText : ∀ line v, fromSlice line = .ok v → JsonText line)
    (inverse : ∀ m ∈ s.agent.log, fromSlice (encoding m.encode) = .ok m.encode)
    (run : execute (Served.step w test (fun m => .ok (encoding m.encode)) debug) (.new reader state) steps = some s)
    (host : List ReadEvent) (cut : streamOf host <+: s.accepted) (labels : List ReceiveStep)
    (h : Receivers (parseWith fromSlice)) (received : execute Receivers.step (.new host) labels = some h)
    (receiver : Receiver) (apart : KeptApart receiver h.answers) :
    got receiver h.answers <+: mail receiver.Carrier s.agent.log ∧
      (streamOf host = s.accepted → ⟨receiver, .ready (.ok none)⟩ ∈ h.answers →
        (∀ first task last, s.agent.events = first ++ .finished task :: last →
          mail receiver.Carrier (logOf first) <+: got receiver h.answers) ∧
        (s.unwritten = [] → got receiver h.answers = mail receiver.Carrier s.agent.log)) := by
  let text (m : Message) := encoding m.encode
  have sound := Sound.run run
  have cutWire : streamOf host <+: wire encoding s.agent.log := sound.wire.wire ▸ cut.trans (List.prefix_append _ _)
  have sorted := Sorted.run received apart
  have start : (RxLocal.new (.new host : MsgReader (parseWith fromSlice))).toLines.messages =
      within text s.agent.log (streamOf host).length := messages_cut compact oneText inverse cutWire
  rw [start] at sorted
  obtain ⟨finished, last⟩ := sound.arrived
  constructor
  · have arrives : mail receiver.Carrier (within text s.agent.log (streamOf host).length) <+:
        mail receiver.Carrier s.agent.log := (within_starts _ _).filterMap _
    rw [sorted.all] at arrives
    exact (List.prefix_append _ _).trans arrives
  · intro all told
    have whole : mail receiver.Carrier (within text s.agent.log (streamOf host).length) = got receiver h.answers := by
      rw [sorted.all, sorted.told told, List.append_nil]
    rw [all] at whole
    rw [← whole]
    exact ⟨fun first task later split => (finished first task later split).filterMap _,
      fun nothing => congrArg (mail receiver.Carrier) (last nothing).1⟩

/-- Who is told of the end by an answer. -/
def tellsEnd : Answer → Option Receiver
  | ⟨receiver, .ready (.ok none)⟩ => some receiver
  | ⟨_, .pending⟩ | ⟨_, .ready (.error _)⟩ | ⟨_, .ready (.ok (some _))⟩ => none

theorem told_of_tellsEnd {receiver : Receiver} {answers : List Answer}
    (tells : some receiver ∈ answers.map tellsEnd) : ⟨receiver, .ready (.ok none)⟩ ∈ answers := by
  obtain ⟨⟨other, outcome⟩, member, same⟩ := List.mem_map.mp tells
  rcases outcome with _ | error | _ | m
  · cases same
  · cases same
  · cases same
    exact member
  · cases same

/-- A receiver of output reads the first message off, waits and is dropped. One of
the exit status gets the status and then the end. -/
def asking : List ReceiveStep := [.recv (.stdout .stdio), .poll 0, .drop 0, .pollRecv .exited, .pollRecv .exited]

theorem stdout_apart_exited : Apart (Stdout Stdio) Exited := by
  intro msg accepted
  cases msg with
  | exited exited => cases accepted
  | _ => rfl

theorem host_receives_exiting :
    ∃ (s : Served Connection (List (Poll (Except IoError Nat))))
      (h : Receivers (parseWith (knownText [.started ⟨7⟩, .exited ⟨0⟩]))),
      h.rx.msgs.queue = [.started ⟨7⟩] ∧ got .exited h.answers = [⟨0⟩] ∧
        got .exited h.answers <+: mail Exited s.agent.log ∧
        ∀ first task last, s.agent.events = first ++ .finished task :: last →
          mail Exited (logOf first) <+: got .exited h.answers := by
  let encoding : Json → Bytes := print fun _ => [48]
  have completes : (execute (Served.step scripted false (fun m => .ok (encoding m.encode)) (fun _ => "")) echoServed
      exiting).map (fun s => (s.agent.log, decide (streamOf exitHeard = s.accepted), decide (s.unwritten = []))) =
      some ([.started ⟨7⟩, .exited ⟨0⟩], true, true) := by
    decide +kernel
  obtain ⟨s, run, reached⟩ := Option.map_eq_some_iff.mp completes
  obtain ⟨log, reached⟩ := Prod.mk.inj reached
  obtain ⟨whole, nothing⟩ := Prod.mk.inj reached
  have hears : (execute Receivers.step
      (.new exitHeard : Receivers (parseWith (knownText [.started ⟨7⟩, .exited ⟨0⟩]))) asking).map
      (fun h => (h.rx.msgs.queue, h.answers.map Answer.receiver, h.answers.map tellsEnd)) =
      some ([.started ⟨7⟩], [.stdout .stdio, .exited, .exited], [none, none, some .exited]) := by
    decide +kernel
  obtain ⟨h, received, answered⟩ := Option.map_eq_some_iff.mp hears
  obtain ⟨queue, answered⟩ := Prod.mk.inj answered
  obtain ⟨receivers, ends⟩ := Prod.mk.inj answered
  have known : ∀ m ∈ s.agent.log,
      (([.started ⟨7⟩, .exited ⟨0⟩] : List Message).find? fun other => other.text = m.text) = some m := by
    rw [log]
    decide +kernel
  have apart : KeptApart .exited h.answers := by
    intro answer member
    have asked : answer.receiver ∈ h.answers.map Answer.receiver := List.mem_map_of_mem member
    generalize answer.receiver = asker at asked
    rw [receivers] at asked
    simp only [List.mem_cons, List.not_mem_nil, or_false] at asked
    rcases asked with rfl | rfl | rfl
    · exact .inr stdout_apart_exited
    · exact .inl rfl
    · exact .inl rfl
  have all := of_decide_eq_true whole
  obtain ⟨starts, told⟩ := host_receives scripted false encoding (fun _ => "")
    (knownText [.started ⟨7⟩, .exited ⟨0⟩]) _ hesitant exiting s (fun m _ => m.text_compact)
    (fun _ _ => knownText_jsonText) (fun m member => knownText_text (known m member)) run exitHeard
    (all ▸ List.prefix_rfl) asking h received .exited apart
  have ended : ⟨.exited, .ready (.ok none)⟩ ∈ h.answers := told_of_tellsEnd (by rw [ends]; simp)
  obtain ⟨finished, last⟩ := told all ended
  refine ⟨s, h, queue, ?_, starts, finished⟩
  rw [last (of_decide_eq_true nothing), log]
  rfl

end MinimalVm.Agent
