import MinimalVm.Io.RoundTrip

/-! What a reader of arbitrary bytes reports.

The bytes buffered and the bytes to come are cut into their non-empty lines. A
poll reports the first of them or leaves them all as they are, so nothing is
reported twice and nothing is lost to a malformed line or to a read error.
-/

set_option autoImplicit false

namespace MinimalVm.Io

open MinimalVm.Semantics MinimalVm.Protocol MinimalVm.Text

variable {parse : Bytes → Except ParseError Message}

/-- The lines still to be reported. -/
def MsgReader.unreported (this : MsgReader parse) : List Bytes :=
  segments newline (this.buffer ++ streamOf this.reader)

inductive Reported (parse : Bytes → Except ParseError Message) (before : List Bytes) :
    PollMessage → List Bytes → Prop
  | pending : Reported parse before .pending before
  | failed (error : IoError) : Reported parse before (.ready (.error (.read error))) before
  | line {line : Bytes} {after : List Bytes} : before = line :: after →
      Reported parse before (.ready (answer (parse line))) after
  | eof : before = [] → Reported parse before (.ready (.ok none)) []

theorem MsgReader.pollReadMessage_reported (this : MsgReader parse) :
    Reported parse this.unreported this.pollReadMessage.1 this.pollReadMessage.2.unreported := by
  fun_induction pollReadMessage this with
  | case1 this found ih =>
    obtain ⟨-, split⟩ := position_some found
    simp only [List.take_zero, List.nil_append, Nat.zero_add] at split
    have skipped : segments newline (newline :: (this.buffer.drop 1 ++ streamOf this.reader)) =
        segments newline (this.buffer.drop 1 ++ streamOf this.reader) := segments_line List.not_mem_nil
    have same : this.unreported = (⟨this.reader, this.buffer.drop 1⟩ : MsgReader parse).unreported := by
      rw [unreported, split]
      exact skipped
    rw [same]
    exact ih
  | case2 this ix positive found msg =>
    obtain ⟨free, split⟩ := position_some found
    have nonempty : this.buffer.take ix ≠ [] := position_take_ne found positive
    have first := segments_line (t := this.buffer.drop (ix + 1) ++ streamOf this.reader) free
    rw [if_neg nonempty, ← List.cons_append, ← List.append_assoc, ← split] at first
    exact .line first
  | case3 reader buffer found => exact .pending
  | case4 error reader buffer found => exact .failed error
  | case5 chunk reader buffer found ih =>
    rw [unreported, List.append_assoc] at ih
    exact ih
  | case6 found => exact .eof rfl
  | case7 buffer found nonempty ih =>
    have free := position_none.mp found
    have same : (⟨[], buffer ++ [newline]⟩ : MsgReader parse).unreported =
        (⟨[], buffer⟩ : MsgReader parse).unreported := by
      simp [unreported, streamOf, segments_line free, segments_free free nonempty, nonempty]
    rw [same] at ih
    exact ih

/-- The results that are neither pending nor read errors. -/
def PollMessage.settled : PollMessage → Option (Except RecvError (Option Message))
  | .pending | .ready (.error (.read _)) => none
  | .ready (.ok msg) => some (.ok msg)
  | .ready (.error (.parse cause)) => some (.error (.parse cause))

theorem settled_answer (item : Item) : PollMessage.settled (.ready (answer item)) = some (answer item) := by
  cases item <;> rfl

theorem pollTimes_reported (n : Nat) (this : MsgReader parse) :
    ∃ reported eofs, this.unreported = reported ++ (pollTimes n this).2.unreported ∧
      (pollTimes n this).1.filterMap PollMessage.settled =
        reported.map (answer ∘ parse) ++ List.replicate eofs (.ok none) ∧
      (eofs ≠ 0 → (pollTimes n this).2.unreported = []) := by
  induction n generalizing this with
  | zero => exact ⟨[], 0, rfl, rfl, fun positive => absurd rfl positive⟩
  | succ n ih =>
    obtain ⟨reported, eofs, split, results, ended⟩ := ih this.pollReadMessage.2
    have first := this.pollReadMessage_reported
    have unfolded : pollTimes (n + 1) this =
      (this.pollReadMessage.1 :: (pollTimes n this.pollReadMessage.2).1, (pollTimes n this.pollReadMessage.2).2) := rfl
    rw [unfolded, List.filterMap_cons]
    generalize this.pollReadMessage.2.unreported = after at first split
    generalize this.pollReadMessage.1 = outcome at first
    cases first with
    | pending => exact ⟨reported, eofs, split, results, ended⟩
    | failed error => exact ⟨reported, eofs, split, results, ended⟩
    | @line line _ whole =>
      refine ⟨line :: reported, eofs, ?_, ?_, ended⟩
      · rw [whole, split, List.cons_append]
      · simp only [settled_answer, results, List.map_cons, Function.comp_apply, List.cons_append]
    | eof empty =>
      obtain ⟨none, nothing⟩ := List.append_eq_nil_iff.mp split.symm
      refine ⟨[], eofs + 1, empty.trans nothing.symm, ?_, fun _ => nothing⟩
      simp [PollMessage.settled, results, none, List.replicate_succ]

theorem settled_outcome (event : ConnectionEvent) :
    event.outcome.settled = event.item?.map answer := by
  cases event with
  | pending | failed _ => rfl
  | line item => exact settled_answer item

theorem pollTimes_drained (this : MsgReader parse) (n : Nat) :
    (pollTimes (this.toConnection.events.length + n) this).1.filterMap PollMessage.settled =
      this.unreported.map (answer ∘ parse) ++ List.replicate n (.ok none) := by
  have polled := pollTimes_connection this.toConnection.events n
  rw [show (⟨this.toConnection.events⟩ : Connection) = this.toConnection from rfl,
    pollTimes_toConnection] at polled
  have ended : (List.replicate n (.ready (.ok none) : PollMessage)).filterMap PollMessage.settled =
      List.replicate n (.ok none) := List.filterMap_replicate_of_some rfl
  have lines : (this.toConnection.events.map ConnectionEvent.outcome).filterMap PollMessage.settled =
      this.toConnection.items.map answer := by
    rw [List.filterMap_map, Connection.items, List.map_filterMap]
    congr 1
    funext event
    exact settled_outcome event
  rw [(Prod.mk.inj polled).1, List.filterMap_append, ended, lines, this.items_toConnection, List.map_map]
  rfl

/-- Leaving out what is pending and the read errors themselves, a reader
reports every non-empty line of its stream once, in order, and then the end of
file for ever. After any number of polls the lines that were not reported yet
are still there, whole. -/
theorem reader_reference (parse : Bytes → Except ParseError Message) (reader : List ReadEvent) :
    (∀ n, ∃ reported rest eofs, segments newline (streamOf reader) = reported ++ rest ∧
      (pollTimes n (.new reader : MsgReader parse)).2.unreported = rest ∧
      (pollTimes n (.new reader : MsgReader parse)).1.filterMap PollMessage.settled =
        reported.map (answer ∘ parse) ++ List.replicate eofs (.ok none) ∧
      (eofs ≠ 0 → rest = [])) ∧
    ∃ polls, ∀ n, (pollTimes (polls + n) (.new reader : MsgReader parse)).1.filterMap PollMessage.settled =
      (segments newline (streamOf reader)).map (answer ∘ parse) ++ List.replicate n (.ok none) := by
  constructor
  · intro n
    obtain ⟨reported, eofs, split, results, ended⟩ := pollTimes_reported n (.new reader : MsgReader parse)
    exact ⟨reported, _, eofs, split, rfl, results, ended⟩
  · exact ⟨_, pollTimes_drained (.new reader)⟩

end MinimalVm.Io
