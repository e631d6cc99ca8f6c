import MinimalVm.Agent.Drawing
import MinimalVm.Agent.Hearing
import MinimalVm.Agent.Input

/-! The child's streams from one end of the connection to the other.

What the host hears of an output are the first pieces of it, however the tasks
fare and wherever the connection is cut, and a host that hears a stream close has
heard all of it. What the child gets is the first part of the input that has
arrived from the host, and the host hears its stream close only after all of it.
-/

set_option autoImplicit false

namespace MinimalVm.Agent

open MinimalVm.Semantics MinimalVm.Protocol MinimalVm.Json MinimalVm.Text MinimalVm.Io

/-! ## Output -/

section
variable {output : Output} {lineBuffered : Bool} {stream : Bytes} {said : List Message}

theorem Drawn.closed (drawn : Drawn output lineBuffered stream said) (closed : output.message .closed ∈ said) :
    ∃ payloads, said = streamed output payloads ++ [output.message .closed] ∧ payloads.flatten = stream ∧
      (lineBuffered = true → payloads = cutAfter newline stream) := by
  cases drawn with
  | @part payloads starts lines => exact absurd closed (List.count_eq_zero.mp (count_streamed output payloads))
  | whole all lines => exact ⟨_, rfl, all, lines⟩

end

/-- From the child's pipe to the host: what is heard of an output are the first
pieces of it, by lines its first lines, and if the host has read what the
connection has got when the task has finished, it has heard all of it. -/
theorem output_arrives {ρ σ : Type} [MessageReader ρ] (w : AsyncWrite σ) (test : Bool) (encoding : Json → Bytes)
    (debug : Message → String) (fromSlice : Bytes → Except ParseError Json) (reader : ρ) (state : σ)
    (before after : List (ServedStep σ)) (exec : Exec) (child : SpawnedChild) (u s : Served ρ σ)
    (compact : ∀ m ∈ s.agent.log, CompactText m.encode (encoding m.encode))
    (oneText : ∀ line v, fromSlice line = .ok v → JsonText line)
    (inverse : ∀ m ∈ s.agent.log, fromSlice (encoding m.encode) = .ok m.encode)
    (first : execute (Served.step w test (fun m => .ok (encoding m.encode)) debug) (.new reader state) before = some u)
    (spawning : u.agent.phase = .spawning exec)
    (later : execute (Served.step w test (fun m => .ok (encoding m.encode)) debug) u
      (.act (.spawn (.ok child)) :: after) = some s)
    (host : List ReadEvent) (reads : ∀ error, .failed error ∉ host) (cut : streamOf host <+: s.accepted)
    (output : Output) :
    let lineBuffered := exec.lineBufferedIo.getD true
    let stream := streamOf (child.pipe output)
    ∃ heard rest N,
      (∀ n, (pollTimes (N + n) (.new host : MsgReader (parseWith fromSlice))).1.filterMap Poll.value? =
        heard.map (.ok ∘ some) ++ rest ++ List.replicate (n + 1) (.ok none)) ∧
      Drawn output lineBuffered stream (saidBy (.output output) heard) ∧
      (rest = [] ∨ ∃ cause, rest = [.error (.parse cause)]) ∧
      (streamOf host = s.accepted → .finished (.output output) ∈ s.agent.events →
        ∃ payloads, saidBy (.output output) heard = streamed output payloads ++ [output.message .closed] ∧
          payloads.flatten = stream ∧ (lineBuffered = true → payloads = cutAfter newline stream)) := by
  intro lineBuffered stream
  have run := execute_append.mpr ⟨u, first, later⟩
  obtain ⟨actions, reached⟩ := Sound.refines run
  obtain ⟨v, moved, onwards⟩ := execute_cons.mp later
  have spawned : u.agent.step (.spawn (.ok child)) = some v.agent := by
    obtain ⟨agent, stepped, rfl⟩ := Option.map_eq_some_iff.mp (moved : u.act _ debug _ = some v)
    exact stepped
  obtain ⟨earlier, spawns⟩ := Sound.refines first
  have drawing := drawing_run spawns spawning spawned (((Sound.run first).step moved).onwards onwards) output
  obtain ⟨heard, rest, N, polls, starts, ends, all⟩ := (Sound.run run).hears compact oneText inverse reads cut
  have drawn : Drawn output lineBuffered stream (saidBy (.output output) heard) :=
    drawing.draws.drawn.of_start (starts.filter _)
  refine ⟨heard, rest, N, polls, drawn, ends, fun whole finished => drawn.closed ?_⟩
  obtain ⟨first, last, split⟩ := List.append_of_mem finished
  -- A task that has finished had said its closed message before.
  obtain ⟨datas, said⟩ := parted_run reached first (.output output) last split
  have closed : output.message .closed ∈ saidBy (.output output) (logOf first) := by
    rw [said]
    exact List.mem_concat_self
  exact (((all whole).1 first _ last split).filter _).subset closed

def linesSaid : List Message :=
  [.started ⟨7⟩, .stdout (.data [104, 105, 10]), .stdout (.data [121, 111, 10]), .stdout (.data [33]), .stdout .closed]

/-- The task reads and sends in turn. Its first line goes out with what was left of
the first message. -/
def reporting : List (ServedStep (List (Poll (Except IoError Nat)))) :=
  let reads : ServedStep (List (Poll (Except IoError Nat))) := .act (.output .stdout (.select true false))
  let sends : ServedStep (List (Poll (Except IoError Nat))) := .send (.output .stdout)
  [.send .main, reads, sends, reads, reads, sends, reads, sends, reads, sends]

def linesHeard : List ReadEvent :=
  [.data ⟨(wire (print fun _ => [48]) linesSaid).take 40, by decide +kernel⟩, .pending,
    .data ⟨(wire (print fun _ => [48]) linesSaid).drop 40, by decide +kernel⟩]

theorem output_arrives_lines :
    ∃ heard rest N,
      (∀ n, (pollTimes (N + n)
          (.new linesHeard : MsgReader (parseWith (knownText linesSaid)))).1.filterMap Poll.value? =
        heard.map (.ok ∘ some) ++ rest ++ List.replicate (n + 1) (.ok none)) ∧
      (rest = [] ∨ ∃ cause, rest = [.error (.parse cause)]) ∧
      saidBy (.output .stdout) heard =
        streamed .stdout [[104, 105, 10], [121, 111, 10], [33]] ++ [.stdout .closed] := by
  let encoding : Json → Bytes := print fun _ => [48]
  let step := Served.step (ρ := Connection) scripted false (fun m => .ok (encoding m.encode)) (fun _ => "")
  have received : (execute step echoServed [.act .receive]).map (fun s => s.agent.phase.exec?) =
      some (some (request "echo")) := by decide +kernel
  obtain ⟨u, first, phase⟩ := Option.map_eq_some_iff.mp received
  have completes : (execute step echoServed ([.act .receive] ++ .act (.spawn (.ok ⟨7, lines, []⟩)) :: reporting)).map
      (fun s => (decide (.finished (.output .stdout) ∈ s.agent.events), s.agent.log,
        decide (streamOf linesHeard = s.accepted))) = some (true, linesSaid, true) := by
    decide +kernel
  obtain ⟨s, run, reached⟩ := Option.map_eq_some_iff.mp completes
  obtain ⟨finished, reached⟩ := Prod.mk.inj reached
  obtain ⟨log, whole⟩ := Prod.mk.inj reached
  obtain ⟨v, same, later⟩ := execute_append.mp run
  cases first.symm.trans same
  have known : ∀ m ∈ s.agent.log, (linesSaid.find? fun other => other.text = m.text) = some m := by
    rw [log]
    decide +kernel
  have all := of_decide_eq_true whole
  obtain ⟨heard, rest, N, polls, drawn, ends, done⟩ :=
    output_arrives scripted false encoding (fun _ => "") (knownText linesSaid) _ hesitant [.act .receive] reporting
      (request "echo") ⟨7, lines, []⟩ u s (fun m _ => m.text_compact) (fun _ _ => knownText_jsonText)
      (fun m member => knownText_text (known m member)) first (Phase.exec?_some phase) later linesHeard
      (by simp [linesHeard]) (all ▸ List.prefix_rfl) .stdout
  obtain ⟨payloads, said, -, cuts⟩ := done all (of_decide_eq_true finished)
  obtain rfl : payloads = [[104, 105, 10], [121, 111, 10], [33]] := (cuts rfl).trans (by decide)
  exact ⟨heard, rest, N, polls, ends, said⟩

/-! ## Input -/

theorem dataOf_starts {first all : List Stdio} (isPrefix : first <+: all) : dataOf first <+: dataOf all := by
  induction first generalizing all with
  | nil => exact List.nil_prefix
  | cons stdio first ih =>
    obtain ⟨rest, rfl⟩ := isPrefix
    match stdio with
    | .closed => exact List.prefix_rfl
    | .data bytes => exact (List.prefix_append_right_inj bytes).mpr (ih (List.prefix_append first rest))

theorem childInput_starts {first all : List Message} (isPrefix : first <+: all) : childInput first <+: childInput all :=
  dataOf_starts (isPrefix.filterMap Message.stdin?)

theorem input_arrives {σ : Type} (w : AsyncWrite σ) (test : Bool) (toVec : Message → Except SerializeError Bytes)
    (debug : Message → String) (encoding : Json → Bytes) (fromSlice : Bytes → Except ParseError Json)
    (ms : List Message) (compact : ∀ m ∈ ms, CompactText m.encode (encoding m.encode))
    (oneText : ∀ line v, fromSlice line = .ok v → JsonText line)
    (inverse : ∀ m ∈ ms, fromSlice (encoding m.encode) = .ok m.encode)
    (reader : List ReadEvent) (cut : streamOf reader <+: wire encoding ms) (state : σ) (steps : List (ServedStep σ))
    (s : Served (MsgReader (parseWith fromSlice)) σ)
    (run : execute (Served.step w test toVec debug) (.new (.new reader) state) steps = some s) :
    ∃ arrived, arrived <+: ms ∧
      (∀ sent, sent <+: ms → wire encoding sent <+: streamOf reader → sent <+: arrived) ∧
      writtenOf s.agent.events <+: childInput arrived ∧ childInput arrived <+: childInput ms ∧
      ∀ first rest, s.agent.events = first ++ .enqueued (.stdin .closed) :: rest →
        writtenOf first = childInput arrived := by
  let arrived := within (fun m => encoding m.encode) ms (streamOf reader).length
  obtain ⟨actions, reached⟩ := Sound.refines run
  have overLines : execute Agent.step (.new (MsgReader.new reader : MsgReader (parseWith fromSlice)).toConnection)
      actions = some s.agent.toLines := by
    have same := Agent.execute_toLines (.new (.new reader : MsgReader (parseWith fromSlice))) actions
    rw [reached] at same
    exact same
  have start := Fed.new (MsgReader.new reader : MsgReader (parseWith fromSlice)).toConnection
  rw [messages_cut compact oneText inverse cut] at start
  have fed := invariant_execute (Fed (childInput arrived)) (fun _ _ _ before moved => before.step moved) start overLines
  have starts : arrived <+: ms := within_starts ms _
  refine ⟨arrived, starts, fun sent isPrefix whole => ?_, fed.feeds.begins, childInput_starts starts, fed.closed⟩
  obtain ⟨rest, rfl⟩ := isPrefix
  exact prefix_within whole.length_le

def feedingServed : List (ServedStep (List (Poll (Except IoError Nat)))) :=
  [.act .receive, .act (.spawn (.ok ⟨7, [], []⟩)), .send .main, .act (.exit (.select true .pending)),
    .act (.exit (.select true .pending)), .act (.stdin .recv), .act (.stdin (.write (.ready (.ok 1)))),
    .act (.stdin (.write .pending)), .act (.stdin .recv), .act (.stdin (.write (.ready (.ok 1)))),
    .act (.stdin (.write (.ready (.ok 1)))), .act (.stdin (.write .pending)), .act (.stdin .recv), .send .stdin]

theorem input_arrives_typing :
    ∃ s : Served (MsgReader (parseWith (knownText typed))) (List (Poll (Except IoError Nat))),
      .enqueued (.stdin .closed) ∈ s.agent.events ∧
      ∃ arrived, arrived <+: typed ∧
        (∀ sent, sent <+: typed → wire (print fun _ => [48]) sent <+: streamOf typing → sent <+: arrived) ∧
        writtenOf s.agent.events <+: childInput arrived ∧ childInput arrived <+: childInput typed ∧
        ∀ first rest, s.agent.events = first ++ .enqueued (.stdin .closed) :: rest →
          writtenOf first = childInput arrived := by
  have completes : (execute (Served.step scripted false messageText (fun _ => ""))
      (.new (.new typing : MsgReader (parseWith (knownText typed))) (List.replicate 9 (.ready (.ok 100))))
      feedingServed).map (fun s => decide (.enqueued (.stdin .closed) ∈ s.agent.events)) = some true := by
    decide +kernel
  obtain ⟨s, run, closed⟩ := Option.map_eq_some_iff.mp completes
  have known : ∀ m ∈ typed, (typed.find? fun other => other.text = m.text) = some m := by decide +kernel
  have cut : streamOf typing <+: wire (print fun _ => [48]) typed := by decide +kernel
  exact ⟨s, of_decide_eq_true closed,
    input_arrives scripted false messageText (fun _ => "") (print fun _ => [48]) (knownText typed) typed
      (fun m _ => m.text_compact) (fun _ _ => knownText_jsonText) (fun m member => knownText_text (known m member))
      typing cut _ feedingServed s run⟩

end MinimalVm.Agent
