import MinimalVm.Agent.Delivering
import MinimalVm.Io.Mailbox
import MinimalVm.Io.RoundTrip

/-! What the host hears of the agent.

The host reads the bytes that the connection has got, cut and split anywhere.
It hears the first of the messages enqueued, whole and in order, and what has
arrived only in part is an error and never a message.
-/

set_option autoImplicit false

namespace MinimalVm.Agent

open MinimalVm.Semantics MinimalVm.Protocol MinimalVm.Json MinimalVm.Text MinimalVm.Io

/-! ## A part of a conversation -/

theorem streamed_take (output : Output) (datas : List Bytes) (n : Nat) :
    (streamed output datas).take n = streamed output (datas.take n) := List.map_take.symm

theorem streamed_starts {output : Output} {datas : List Bytes} {said : List Message}
    (isPrefix : said <+: streamed output datas) : ∃ datas, said = streamed output datas := by
  have same := List.prefix_iff_eq_take.mp isPrefix
  exact ⟨datas.take said.length, same.trans (streamed_take output datas said.length)⟩

theorem Shaped.of_start {log heard : List Message} (shaped : Shaped log) (isPrefix : heard <+: log) : Shaped heard := by
  have said (task : Task) : saidBy task heard <+: saidBy task log := isPrefix.filter _
  have longer {before after : List Message} {msg : Message} (split : heard = before ++ msg :: after) :
      ∃ rest, log = before ++ msg :: (after ++ rest) := by
    obtain ⟨rest, rfl⟩ := isPrefix
    exact ⟨rest, by rw [split]; simp⟩
  constructor
  · intro msg first
    obtain ⟨rest, rfl⟩ := isPrefix
    apply shaped.first msg
    rw [List.head?_append, first]
    rfl
  · intro before started after split
    obtain ⟨rest, whole⟩ := longer split
    exact shaped.startedFirst before started _ whole
  · intro before msg after task split speaks apart
    obtain ⟨rest, whole⟩ := longer split
    exact shaped.afterStarted before msg _ task whole speaks apart
  · intro output
    obtain ⟨datas, same | same⟩ := shaped.streams output
    · obtain ⟨datas, part⟩ := streamed_starts (same ▸ said (.output output))
      exact ⟨datas, .inl part⟩
    · rcases List.prefix_concat_iff.mp (same ▸ said (.output output)) with whole | part
      · exact ⟨datas, .inr whole⟩
      · obtain ⟨datas, part⟩ := streamed_starts part
        exact ⟨datas, .inl part⟩
  · exact Nat.le_trans (isPrefix.sublist.count_le _) shaped.stdinOnce
  · exact Nat.le_trans (said .exit).length_le shaped.exitedOnce
  · intro before error after split
    obtain ⟨rest, whole⟩ := longer split
    obtain ⟨last, only⟩ := shaped.errorLast before error _ whole
    exact ⟨(List.append_eq_nil_iff.mp last).1, only⟩

/-! ## A part of the wire -/

theorem items_cut {encoding : Json → Bytes} {fromSlice : Bytes → Except ParseError Json} {ms : List Message}
    (compact : ∀ m ∈ ms, CompactText m.encode (encoding m.encode))
    (oneText : ∀ line v, fromSlice line = .ok v → JsonText line)
    (inverse : ∀ m ∈ ms, fromSlice (encoding m.encode) = .ok m.encode) {host : List ReadEvent}
    (cut : streamOf host <+: wire encoding ms) :
    let text (m : Message) := encoding m.encode
    ∃ rest, (MsgReader.new host : MsgReader (parseWith fromSlice)).toConnection.items =
        (within text ms (streamOf host).length).map .ok ++ rest ∧
      if endsInside text ms (streamOf host).length then ∃ cause, rest = [.error cause] else rest = [] := by
  intro text
  have lines : ∀ m ∈ ms, newline ∉ text m ∧ text m ≠ [] := fun m member => compact_line (compact m member)
  have arrived : (framesOf (ms.map text)).take (streamOf host).length = streamOf host :=
    (List.prefix_iff_eq_take.mp cut).symm
  obtain ⟨parts, leftover, segmented⟩ := segments_take lines (streamOf host).length
  rw [arrived] at segmented
  have whole : ((within text ms (streamOf host).length).map text).map (parseWith fromSlice) =
      (within text ms (streamOf host).length).map .ok := by
    rw [List.map_map]
    exact List.map_congr_left fun m member => parseWith_text (inverse m (within_subset member))
  refine ⟨parts.map (parseWith fromSlice), ?_, ?_⟩
  · rw [MsgReader.items_toConnection, ← whole, ← List.map_append, ← segmented]
    rfl
  · generalize endsInside text ms (streamOf host).length = inside at leftover
    cases leftover with
    | none => rfl
    | part cut =>
      obtain ⟨m, member, isPrefix, nonempty, strict⟩ := cut
      obtain ⟨cause, failed⟩ := parseWith_part oneText (compact_part (compact m member) isPrefix nonempty strict)
      exact ⟨cause, congrArg (fun item => [item]) failed⟩

theorem wellFormed_answers (ms : List Message) (rest : List Item) :
    wellFormed (ms.map .ok ++ rest) = ms ++ wellFormed rest := by
  induction ms with
  | nil => rfl
  | cons m ms ih => exact congrArg (m :: ·) ih

theorem messages_cut {encoding : Json → Bytes} {fromSlice : Bytes → Except ParseError Json} {ms : List Message}
    (compact : ∀ m ∈ ms, CompactText m.encode (encoding m.encode))
    (oneText : ∀ line v, fromSlice line = .ok v → JsonText line)
    (inverse : ∀ m ∈ ms, fromSlice (encoding m.encode) = .ok m.encode) {reader : List ReadEvent}
    (cut : streamOf reader <+: wire encoding ms) :
    (RxLocal.new (MsgReader.new reader : MsgReader (parseWith fromSlice)).toConnection).messages =
      within (fun m => encoding m.encode) ms (streamOf reader).length := by
  obtain ⟨rest, items, ends⟩ := items_cut compact oneText inverse cut
  have malformed : wellFormed rest = [] := by
    split at ends
    · obtain ⟨cause, rfl⟩ := ends
      rfl
    · rw [ends]
      rfl
  refine (congrArg wellFormed items).trans ?_
  rw [wellFormed_answers, malformed, List.append_nil]

/-! ## From the agent to the host -/

theorem Framed.wire {encoding : Json → Bytes} {msgs : List Message} {bytes : Bytes}
    (framed : Framed (fun m => .ok (encoding m.encode)) msgs bytes) : bytes = wire encoding msgs := by
  obtain ⟨payloads, encoded, rfl⟩ := framed
  have same : (msgs.map fun m => encoding m.encode) = payloads := by
    refine (List.map_inj_right (fun _ _ => Except.ok.inj)).mp (Eq.trans ?_ encoded)
    rw [List.map_map]
    rfl
  rw [Io.wire, same]

theorem Sound.arrived {ρ σ : Type} {encoding : Json → Bytes} {s : Served ρ σ}
    (sound : Sound (fun m => .ok (encoding m.encode)) s) :
    let text (m : Message) := encoding m.encode
    (∀ first task last, s.agent.events = first ++ .finished task :: last →
      logOf first <+: within text s.agent.log s.accepted.length) ∧
      (s.unwritten = [] → within text s.agent.log s.accepted.length = s.agent.log ∧
        endsInside text s.agent.log s.accepted.length = false) := by
  intro text
  constructor
  · intro first task last split
    obtain ⟨bytes, framed, arrived⟩ := sound.finished first task last split
    obtain ⟨later, grown⟩ : logOf first <+: s.agent.log := by
      rw [Agent.log, split, logOf_append]
      exact List.prefix_append _ _
    rw [← grown]
    apply prefix_within
    obtain rfl := framed.wire
    exact arrived.length_le
  · intro nothing
    have wired := sound.wire.wire
    rw [nothing, List.append_nil] at wired
    have whole : s.accepted.length = (framesOf (s.agent.log.map text)).length := congrArg List.length wired
    rw [whole]
    exact ⟨within_all, endsInside_all⟩

theorem Sound.hears {ρ σ : Type} {encoding : Json → Bytes} {fromSlice : Bytes → Except ParseError Json}
    {s : Served ρ σ} (sound : Sound (fun m => .ok (encoding m.encode)) s)
    (compact : ∀ m ∈ s.agent.log, CompactText m.encode (encoding m.encode))
    (oneText : ∀ line v, fromSlice line = .ok v → JsonText line)
    (inverse : ∀ m ∈ s.agent.log, fromSlice (encoding m.encode) = .ok m.encode)
    {host : List ReadEvent} (reads : ∀ error, .failed error ∉ host) (cut : streamOf host <+: s.accepted) :
    ∃ heard rest N,
      (∀ n, (pollTimes (N + n) (.new host : MsgReader (parseWith fromSlice))).1.filterMap Poll.value? =
        heard.map (.ok ∘ some) ++ rest ++ List.replicate (n + 1) (.ok none)) ∧
      heard <+: s.agent.log ∧ (rest = [] ∨ ∃ cause, rest = [.error (.parse cause)]) ∧
      (streamOf host = s.accepted →
        (∀ first task last, s.agent.events = first ++ .finished task :: last → logOf first <+: heard) ∧
        (s.unwritten = [] → heard = s.agent.log ∧ rest = [])) := by
  let text (m : Message) := encoding m.encode
  have wired := sound.wire.wire
  have cutWire : streamOf host <+: Io.wire encoding s.agent.log := wired ▸ cut.trans (List.prefix_append _ _)
  obtain ⟨rest, items, ends⟩ := items_cut compact oneText inverse cutWire
  obtain ⟨finished, last⟩ := sound.arrived
  let this : MsgReader (parseWith fromSlice) := .new host
  refine ⟨within text s.agent.log (streamOf host).length, rest.map answer, this.toConnection.events.length + 1,
    fun n => ?_, within_starts _ _, ?_, fun all => ⟨all ▸ finished, fun nothing => ?_⟩⟩
  · rw [Nat.add_right_comm, Nat.add_assoc, pollTimes_answers this reads, items, List.map_append, List.map_map]
    rfl
  · split at ends
    · obtain ⟨cause, rfl⟩ := ends
      exact .inr ⟨cause, rfl⟩
    · exact .inl (congrArg (List.map answer) ends)
  · obtain ⟨whole, clean⟩ := last nothing
    rw [all] at ends ⊢
    rw [clean] at ends
    exact ⟨whole, congrArg (List.map answer) ends⟩

/-- Whatever the tasks, the writer and the connection do, a host that reads what
the connection has got hears a beginning of what was said, each message whole
and in order, then at most one error for a message that was cut, and then the
end. If it has read all, it has heard everything said by the time a task
finished, and if nothing is left to be written it has heard everything. -/
theorem host_hears {ρ σ : Type} [MessageReader ρ] (w : AsyncWrite σ) (test : Bool) (encoding : Json → Bytes)
    (debug : Message → String) (fromSlice : Bytes → Except ParseError Json) (reader : ρ) (state : σ)
    (steps : List (ServedStep σ)) (s : Served ρ σ)
    (compact : ∀ m ∈ s.agent.log, CompactText m.encode (encoding m.encode))
    (oneText : ∀ line v, fromSlice line = .ok v → JsonText line)
    (inverse : ∀ m ∈ s.agent.log, fromSlice (encoding m.encode) = .ok m.encode)
    (run : execute (Served.step w test (fun m => .ok (encoding m.encode)) debug) (.new reader state) steps = some s)
    (host : List ReadEvent) (reads : ∀ error, .failed error ∉ host) (cut : streamOf host <+: s.accepted) :
    ∃ heard rest N,
      (∀ n, (pollTimes (N + n) (.new host : MsgReader (parseWith fromSlice))).1.filterMap Poll.value? =
        heard.map (.ok ∘ some) ++ rest ++ List.replicate (n + 1) (.ok none)) ∧
      heard <+: s.agent.log ∧ Shaped heard ∧ (rest = [] ∨ ∃ cause, rest = [.error (.parse cause)]) ∧
      (streamOf host = s.accepted →
        (∀ first task last, s.agent.events = first ++ .finished task :: last →
          logOf first <+: heard ∧ Whole task (saidBy task (logOf first))) ∧
        (s.unwritten = [] → heard = s.agent.log ∧ rest = [])) := by
  obtain ⟨actions, reached⟩ := Sound.refines run
  obtain ⟨heard, rest, N, polls, starts, ends, all⟩ := (Sound.run run).hears compact oneText inverse reads cut
  refine ⟨heard, rest, N, polls, starts, (converses_run reached).shaped.of_start starts, ends, fun whole => ?_⟩
  obtain ⟨finished, last⟩ := all whole
  exact ⟨fun first task later split => ⟨finished first task later split, parted_run reached first task later split⟩, last⟩

def exitHeard : List ReadEvent :=
  [.data ⟨(wire (print fun _ => [48]) [.started ⟨7⟩, .exited ⟨0⟩]).take 30, by decide +kernel⟩, .pending,
    .data ⟨(wire (print fun _ => [48]) [.started ⟨7⟩, .exited ⟨0⟩]).drop 30, by decide +kernel⟩]

theorem host_hears_exiting :
    ∃ s : Served Connection (List (Poll (Except IoError Nat))), .finished .exit ∈ s.agent.events ∧
      ∃ heard rest N,
        (∀ n, (pollTimes (N + n)
            (.new exitHeard : MsgReader (parseWith (knownText [.started ⟨7⟩, .exited ⟨0⟩])))).1.filterMap Poll.value? =
          heard.map (.ok ∘ some) ++ rest ++ List.replicate (n + 1) (.ok none)) ∧
        heard <+: s.agent.log ∧ Shaped heard ∧ (rest = [] ∨ ∃ cause, rest = [.error (.parse cause)]) ∧
        (streamOf exitHeard = s.accepted →
          (∀ first task last, s.agent.events = first ++ .finished task :: last →
            logOf first <+: heard ∧ Whole task (saidBy task (logOf first))) ∧
          (s.unwritten = [] → heard = s.agent.log ∧ rest = [])) := by
  let encoding : Json → Bytes := print fun _ => [48]
  have completes : (execute (Served.step scripted false (fun m => .ok (encoding m.encode)) (fun _ => "")) echoServed
      exiting).map (fun s => (decide (.finished .exit ∈ s.agent.events), s.agent.log,
        decide (streamOf exitHeard <+: s.accepted))) = some (true, [.started ⟨7⟩, .exited ⟨0⟩], true) := by
    decide +kernel
  obtain ⟨s, run, reached⟩ := Option.map_eq_some_iff.mp completes
  obtain ⟨finished, reached⟩ := Prod.mk.inj reached
  obtain ⟨log, cut⟩ := Prod.mk.inj reached
  have known : ∀ m ∈ s.agent.log,
      (([.started ⟨7⟩, .exited ⟨0⟩] : List Message).find? fun other => other.text = m.text) = some m := by
    rw [log]
    decide +kernel
  exact ⟨s, of_decide_eq_true finished,
    host_hears scripted false encoding (fun _ => "") (knownText [.started ⟨7⟩, .exited ⟨0⟩]) _ hesitant exiting s
      (fun m _ => m.text_compact) (fun _ _ => knownText_jsonText) (fun m member => knownText_text (known m member)) run
      exitHeard (by simp [exitHeard]) (of_decide_eq_true cut)⟩

end MinimalVm.Agent
