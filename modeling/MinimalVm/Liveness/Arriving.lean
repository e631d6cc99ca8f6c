import MinimalVm.Io.RoundTrip
import MinimalVm.Liveness.Loads
import MinimalVm.Liveness.Shutdown
import MinimalVm.Liveness.Transport

/-! What the host receives of the reports of a guest.

A report is flushed before the next one is collected, so a host that has read
what the connection has got is at most one report behind. The connection may be
cut at any byte. The reports that have arrived whole are received, and the one
that was cut is an error and never a status.
-/

set_option autoImplicit false

namespace MinimalVm.Liveness

open MinimalVm.Semantics MinimalVm.Text MinimalVm.Json

/-! ## Reading any bytes -/

def decodedLine (payload : Bytes) : Except IoError Text :=
  match fromUtf8 payload with
  | none => .error ⟨"stream did not contain valid UTF-8"⟩
  | some text => .ok (chompLine text)

def decodedLines (bytes : Bytes) : List (Except IoError Text) := (cutAfter newline bytes).map decodedLine

/-- What a poll comes to when there are still some lines to come, of which some
may not be text. -/
inductive NextDecoded {ρ : Type} (yields : ρ → List (Except IoError Text) → Prop) :
    List (Except IoError Text) → PollLine × ρ → Prop
  | waits {r : ρ} {ls : List (Except IoError Text)} : yields r ls → NextDecoded yields ls (.pending, r)
  | answers {r : ρ} {line : Except IoError Text} {ls : List (Except IoError Text)} : yields r ls →
      NextDecoded yields (line :: ls) (.ready (line.map some), r)
  | ends {r : ρ} : yields r [] → NextDecoded yields [] (.ready (.ok none), r)

/-- The lines of a connection without errors are those of its bytes, whatever
bytes they are. -/
structure LineReader.Faithful {ρ : Type} (this : LineReader ρ) (yields : ρ → List (Except IoError Text) → Prop) :
    Prop where
  start : ∀ reader, Agent.Steady reader → yields (this.new reader) (decodedLines (streamOf reader))
  next : ∀ r ls, yields r ls → NextDecoded yields ls (this.pollNextLine r)

theorem decodeLine_payload (payload : Bytes) : decodeLine (.ok (some payload)) = (decodedLine payload).map some := by
  unfold decodeLine decodedLine
  dsimp only
  cases fromUtf8 payload with
  | none => rfl
  | some text => rfl

def BufferedLines.Decodes (this : BufferedLines) (ls : List (Except IoError Text)) : Prop :=
  Agent.Steady this.reads ∧ ls = decodedLines (this.buffer ++ streamOf this.reads)

theorem BufferedLines.faithful : reader.Faithful Decodes where
  start reads steady := ⟨steady, rfl⟩
  next := by
    rintro ⟨reads, buffer⟩ ls ⟨steady, rfl⟩
    have polled := Agent.readLine_polled buffer steady
    unfold reader pollNextLine
    dsimp only
    generalize Agent.readLine reads buffer = result at polled
    cases polled with
    | waits _ steady' kept _ => exact .waits ⟨steady', congrArg decodedLines kept.symm⟩
    | returns steady' _ _ cut =>
      rw [decodedLines, cut rfl, List.map_cons]
      dsimp only [Poll.map]
      rw [decodeLine_payload]
      exact .answers ⟨steady', rfl⟩
    | ends eof empty =>
      subst eof
      subst empty
      exact .ends ⟨nofun, rfl⟩

namespace Wire

section
variable {ρ : Type} {lines : LineReader ρ} {fromJson : Text → Except DecodeError Json}
  {yields : ρ → List (Except IoError Text) → Prop}

/-- What a line that was read is reported as. -/
def told (fromJson : Text → Except DecodeError Json) : Except IoError Text → Except RecvError (Option Status)
  | .ok line => received fromJson line
  | .error cause => .error (.reading cause)

def firstTold (fromJson : Text → Except DecodeError Json) :
    List (Except IoError Text) → Except RecvError (Option Status)
  | [] => .ok none
  | line :: _ => told fromJson line

theorem pollRecv_decodes (faithful : lines.Faithful yields) {r : ρ} {ls : List (Except IoError Text)}
    (left : yields r ls) :
    ((pollRecv lines fromJson r).1 = .pending ∧ yields (pollRecv lines fromJson r).2 ls) ∨
      ((pollRecv lines fromJson r).1 = .ready (firstTold fromJson ls) ∧
        yields (pollRecv lines fromJson r).2 ls.tail) := by
  have next := faithful.next r ls left
  unfold pollRecv
  generalize lines.pollNextLine r = polled at next
  cases next with
  | waits later => exact .inl ⟨rfl, later⟩
  | @answers _ line _ later =>
    cases line with
    | ok line => exact .inr ⟨rfl, later⟩
    | error cause => exact .inr ⟨rfl, later⟩
  | ends later => exact .inr ⟨rfl, later⟩

theorem recv_decodes (faithful : lines.Faithful yields) {r : ρ} {ls : List (Except IoError Text)} (left : yields r ls) :
    (recv lines fromJson r).1 = firstTold fromJson ls ∧ yields (recv lines fromJson r).2 ls.tail := by
  fun_induction recv lines fromJson r with
  | case1 r waits ih =>
    rcases pollRecv_decodes faithful left with ⟨-, later⟩ | ⟨answered, -⟩
    · exact ih later
    · cases waits.symm.trans answered
  | case2 r result ready =>
    rcases pollRecv_decodes faithful left with ⟨waits, -⟩ | ⟨answered, later⟩
    · cases ready.symm.trans waits
    · exact ⟨Poll.ready.inj (ready.symm.trans answered), later⟩

/-- The calls answer for the lines in order, then with the end of file for ever. -/
theorem recvs_decodes (faithful : lines.Faithful yields) {r : ρ} {ls : List (Except IoError Text)} (left : yields r ls)
    (n : Nat) :
    recvs lines fromJson (ls.length + n) r = ls.map (told fromJson) ++ List.replicate n (.ok none) := by
  induction ls generalizing r with
  | nil =>
    rw [List.length_nil, Nat.zero_add]
    induction n generalizing r with
    | zero => rfl
    | succ n ih =>
      obtain ⟨answer, later⟩ := recv_decodes faithful left
      rw [recvs, ih later, answer]
      rfl
  | cons line ls ih =>
    obtain ⟨answer, later⟩ := recv_decodes faithful left
    rw [List.length_cons, Nat.add_right_comm, recvs, ih later, answer]
    rfl

end

end Wire

/-! ## What arrives of some lines -/

theorem chompLine_free {line : Text} (absent : '\n' ∉ line) : chompLine line = line := by
  unfold chompLine
  cases reversed : line.reverse with
  | nil => simp [List.isSuffixOf?, reversed, List.isPrefixOf?]
  | cons c rest =>
    have member : c ∈ line := List.mem_reverse.mp (reversed ▸ List.mem_cons_self)
    have apart : ('\n' == c) = false := beq_eq_false_iff_ne.mpr fun same => absent (same ▸ member)
    simp [List.isSuffixOf?, reversed, List.isPrefixOf?, apart]

structure WholeLine (line : Text) : Prop where
  nonempty : line ≠ []
  free : '\n' ∉ line
  chomped : chompLine (line ++ ['\n']) = line

theorem decodedLine_encodeText (text : Text) : decodedLine (encodeText text) = .ok (chompLine text) := by
  rw [decodedLine, fromUtf8_encodeText]

namespace WholeLine

variable {line : Text}

theorem bytes (whole : WholeLine line) : newline ∉ encodeText line ∧ encodeText line ≠ [] :=
  ⟨mt newline_encodeText.mp whole.free, mt encodeText_eq_nil.mp whole.nonempty⟩

theorem decodedLines_take (whole : WholeLine line) {t : Bytes} {n : Nat} (arrived : (encodeText line).length ≤ n) :
    decodedLines ((encodeText line ++ newline :: t).take n) =
      .ok line :: decodedLines (t.take (n - (encodeText line).length - 1)) := by
  obtain ⟨free, nonempty⟩ := whole.bytes
  rw [List.take_append, List.take_of_length_le arrived, decodedLines]
  cases left : n - (encodeText line).length with
  | zero =>
    rw [List.take_zero, List.append_nil, cutAfter_free free nonempty, List.map_singleton, decodedLine_encodeText,
      chompLine_free whole.free]
    rfl
  | succ k =>
    have ended : encodeText line ++ [newline] = encodeText (line ++ ['\n']) := by
      rw [encodeText_append]
      rfl
    rw [List.take_succ_cons, cutAfter_line free, ended, List.map_cons, decodedLine_encodeText, whole.chomped]
    rfl

end WholeLine

section
variable {α : Type} {line : α → Text}

/-- The lines of a connection that was cut: those that have arrived whole, with
or without their end, and the part of the one that was cut. -/
theorem decodedLines_cut {as : List α} (whole : ∀ a ∈ as, WholeLine (line a)) (n : Nat) :
    let text (a : α) := encodeText (line a)
    ∃ rest, Io.Leftover text as (Io.endsInside text as n) rest ∧
      decodedLines ((Io.framesOf (as.map text)).take n) =
        (Io.within text as n).map (.ok ∘ line) ++ rest.map decodedLine := by
  intro text
  induction as generalizing n with
  | nil =>
    have nothing : (Io.framesOf (([] : List α).map text)).take n = [] := List.take_nil
    refine ⟨[], .none, ?_⟩
    rw [nothing]
    rfl
  | cons a as ih =>
    have first := whole a List.mem_cons_self
    obtain ⟨free, nonempty⟩ := first.bytes
    have frames : Io.framesOf ((a :: as).map text) = text a ++ newline :: Io.framesOf (as.map text) := by
      simp [Io.framesOf, Io.frame]
    rw [frames, Io.within, Io.endsInside]
    by_cases arrived : (text a).length ≤ n
    · obtain ⟨rest, leftover, later⟩ := ih (fun b member => whole b (List.mem_cons_of_mem a member))
        (n - (text a).length - 1)
      rw [if_pos arrived, if_pos arrived]
      refine ⟨rest, leftover.cons a, ?_⟩
      rw [first.decodedLines_take arrived, later]
      rfl
    · -- The cut lies in the first line, so nothing after it has arrived.
      rw [if_neg arrived, if_neg arrived, List.take_append_of_le_length (by omega)]
      rcases Nat.eq_zero_or_pos n with rfl | positive
      · exact ⟨[], .none, rfl⟩
      · have some : (text a).take n ≠ [] := by
          rw [ne_eq, List.take_eq_nil_iff]
          exact not_or.mpr ⟨positive.ne', nonempty⟩
        have short : (text a).take n ≠ text a := fun same => by
          have length := congrArg List.length same
          rw [List.length_take] at length
          omega
        have freePart : newline ∉ (text a).take n := fun member => free (List.mem_of_mem_take member)
        refine ⟨[(text a).take n], ?_, ?_⟩
        · rw [decide_eq_true positive]
          exact .part ⟨a, List.mem_cons_self, List.take_prefix n (text a), some, short⟩
        · rw [decodedLines, cutAfter_free freePart some]
          rfl

end

/-! ## What is delivered -/

/-- The status as it is sent, with its load rounded to a double. -/
def Status.wire (round : Rat → UInt64) (this : Status) : Wire.Status :=
  ⟨this.systemd, round this.cpuPercent, this.memory, this.swap, this.disks⟩

section
variable (round : Rat → UInt64) (toJson : Json → Except IoError Text)

def reportJson (status : Status) : Except IoError Bytes :=
  (toJson (Wire.Message.encode (.status (status.wire round)))).map encodeText

def reportsOf (statuses : List Status) : Bytes := Wire.framesOf toJson (statuses.map (Status.wire round))

variable {round toJson}

theorem reportsOf_snoc {status : Status} {line : Bytes} (written : reportJson round toJson status = .ok line)
    (statuses : List Status) :
    reportsOf round toJson (statuses ++ [status]) = reportsOf round toJson statuses ++ (line ++ [10]) := by
  unfold reportJson at written
  cases wrote : toJson (Wire.Message.encode (.status (status.wire round))) with
  | error cause =>
    rw [wrote] at written
    cases written
  | ok text =>
    rw [wrote] at written
    cases written
    rw [reportsOf, List.map_append]
    exact Wire.framesOf_snoc wrote _

theorem reportsOf_append (first rest : List Status) :
    reportsOf round toJson (first ++ rest) = reportsOf round toJson first ++ reportsOf round toJson rest := by
  unfold reportsOf Wire.framesOf
  rw [List.map_append, List.flatMap_append, encodeText_append]

theorem reportsOf_starts {first statuses : List Status} (isPrefix : first <+: statuses) :
    reportsOf round toJson first <+: reportsOf round toJson statuses := by
  obtain ⟨rest, rfl⟩ := isPrefix
  rw [reportsOf_append]
  exact List.prefix_append _ _

end

structure Commits {σ : Type} (w : AsyncWrite σ) (delivered : σ → Bytes) : Prop where
  write : ∀ s offered, delivered s <+: delivered (w.pollWrite s offered).2
  flush : ∀ s, delivered s <+: delivered (w.pollFlush s).2

section
variable {σ : Type} {w : AsyncWrite σ} {delivered : σ → Bytes}

theorem pollWriteAll_commits (commits : Commits w delivered) (writer : σ) (left : Bytes) :
    delivered writer <+: delivered (pollWriteAll w writer left).2.2 := by
  fun_induction pollWriteAll w writer left with
  | case1 writer => exact List.prefix_rfl
  | case2 writer left nonempty writer' polled => exact congrArg Prod.snd polled ▸ commits.write writer left
  | case3 writer left nonempty error writer' polled => exact congrArg Prod.snd polled ▸ commits.write writer left
  | case4 writer left nonempty n writer' polled zero => exact congrArg Prod.snd polled ▸ commits.write writer left
  | case5 writer left nonempty n writer' polled positive ih =>
    have wrote := commits.write writer left
    rw [polled] at wrote
    exact wrote.trans ih

theorem pollFlush_commits (commits : Commits w delivered) (writer : σ) :
    delivered writer <+: delivered (pollFlush w writer).2.2 := by
  have flushed := commits.flush writer
  unfold pollFlush
  split
  · rename_i polled
    exact congrArg Prod.snd polled ▸ flushed
  · rename_i polled
    exact congrArg Prod.snd polled ▸ flushed
  · rename_i polled
    exact congrArg Prod.snd polled ▸ flushed

theorem pollNewline_commits (commits : Commits w delivered) (writer : σ) (left : Bytes) :
    delivered writer <+: delivered (pollNewline w writer left).2.2 := by
  have wrote := pollWriteAll_commits commits writer left
  unfold pollNewline
  split
  · rename_i polled
    rw [polled] at wrote
    exact wrote
  · rename_i polled
    rw [polled] at wrote
    exact wrote
  · rename_i polled
    rw [polled] at wrote
    exact wrote.trans (pollFlush_commits commits _)

theorem Sending.poll_commits (commits : Commits w delivered) (writer : σ) (sending : Sending) :
    delivered writer <+: delivered (sending.poll w writer).2.2 := by
  cases sending with
  | line left =>
    have wrote := pollWriteAll_commits commits writer left
    unfold Sending.poll
    dsimp only
    split
    · rename_i polled
      rw [polled] at wrote
      exact wrote
    · rename_i polled
      rw [polled] at wrote
      exact wrote
    · rename_i polled
      rw [polled] at wrote
      exact wrote.trans (pollNewline_commits commits _ _)
  | newline left => exact pollNewline_commits commits writer left
  | flush => exact pollFlush_commits commits writer

end

/-- All reports are delivered while none is being sent, and all but the last one
are at any time, unless a send has failed. -/
def Reporter.Carries {σ : Type} (delivered held : σ → Bytes) (reports : List Status → Bytes)
    (this : Reporter σ) : Prop :=
  let statuses := (collected this.events).statuses
  match this.phase with
  | .initial => this.events = [] ∧ delivered this.writer = [] ∧ held this.writer = []
  | .resting cpu =>
    (collected this.events).cpu = some cpu ∧ delivered this.writer = reports statuses ∧ held this.writer = []
  | .sending cpu sending => (collected this.events).cpu = some cpu ∧ reports statuses.dropLast <+: delivered this.writer ∧
      delivered this.writer ++ held this.writer ++ sending.rest = reports statuses
  | .returned _ => reports statuses.dropLast <+: delivered this.writer ∧ delivered this.writer <+: reports statuses ∧
      ((∀ error, .sendFailed error ∉ this.events) → delivered this.writer = reports statuses)

section
variable {σ : Type} {w : AsyncWrite σ} {delivered held : σ → Bytes} {round : Rat → UInt64}
  {toJson : Json → Except IoError Text}

theorem Reporter.Carries.returns {writer : σ} {events : List ReportEvent} {result : Except MetricsError Unit}
    (all : delivered writer = reportsOf round toJson (collected events).statuses) :
    (⟨writer, .returned result, events⟩ : Reporter σ).Carries delivered held (reportsOf round toJson) :=
  ⟨all ▸ reportsOf_starts (List.dropLast_prefix _), all ▸ List.prefix_rfl, fun _ => all⟩

theorem carries_preserved (buffers : Buffers w delivered held) (commits : Commits w delivered) :
    Preserved w (reportJson round toJson) (Reporter.Carries delivered held (reportsOf round toJson)) where
  unsampled {writer events guest error} before failed := by
    obtain ⟨none, nothing, -⟩ := before
    subst none
    exact .returns nothing
  samples {writer events guest cpu} before sampled := by
    obtain ⟨none, nothing, empty⟩ := before
    subst none
    have read := collected_samples sampled
    refine ⟨congrArg Collected.cpu read, nothing.trans ?_, empty⟩
    rw [List.nil_append, read]
    rfl
  uncollected {writer events cpu cpu' guests error} before collects := by
    obtain ⟨cpuRead, all, -⟩ := before
    apply Reporter.Carries.returns
    rw [collected_fails cpuRead collects]
    exact all
  -- The status counts as reported although nothing of it was written.
  unserialized {writer events cpu cpu' guests status cause} before collects _ := by
    obtain ⟨cpuRead, all, -⟩ := before
    have statuses : (collected (events ++ [.began guests] ++ [.sendFailed (.serializing cause)])).statuses =
        (collected events).statuses ++ [status] := by
      rw [collected_snoc]
      exact congrArg Collected.statuses (collected_completes cpuRead collects)
    refine ⟨?_, ?_, fun none => absurd List.mem_concat_self (none _)⟩
    · rw [statuses, List.dropLast_concat]
      exact all ▸ List.prefix_rfl
    · rw [statuses]
      exact all ▸ reportsOf_starts (List.prefix_append _ _)
  -- The new report is all that is not yet delivered.
  begins {writer events cpu cpu' guests status line} before collects written := by
    obtain ⟨cpuRead, all, empty⟩ := before
    have read := collected_completes cpuRead collects
    dsimp only at all empty
    refine ⟨congrArg Collected.cpu read, ?_, ?_⟩
    · rw [read, List.dropLast_concat]
      exact all ▸ List.prefix_rfl
    · rw [read, reportsOf_snoc written, all, empty, List.append_nil]
      rfl
  waits {writer writer' events cpu sending sending'} before polled := by
    obtain ⟨cpuRead, most, all⟩ := before
    have kept := (sending.poll_conserves buffers writer).1
    have more := sending.poll_commits commits writer
    rw [polled] at kept more
    exact ⟨cpuRead, most.trans more, kept.trans all⟩
  -- What was accepted of the last report may stay undelivered.
  fails {writer writer' events cpu sending sending' error} before polled := by
    obtain ⟨-, most, all⟩ := before
    have kept := (sending.poll_conserves buffers writer).1
    have more := sending.poll_commits commits writer
    rw [polled] at kept more
    have statuses : (collected (events ++ [.sendFailed error])).statuses = (collected events).statuses := by
      rw [collected_snoc]
      rfl
    refine ⟨?_, ?_, fun none => absurd List.mem_concat_self (none _)⟩
    · rw [statuses]
      exact most.trans more
    · rw [statuses, ← kept.trans all, List.append_assoc]
      exact List.prefix_append _ _
  sent {writer writer' events cpu sending sending'} before polled := by
    obtain ⟨cpuRead, -, all⟩ := before
    obtain ⟨kept, done⟩ := sending.poll_conserves buffers writer
    rw [polled] at kept done
    -- A complete send has nothing left to write and has flushed.
    obtain ⟨rest, empty⟩ := done rfl
    have whole := kept.trans all
    rw [rest, empty, List.append_nil, List.append_nil] at whole
    exact ⟨cpuRead, whole, empty⟩
  shuts {writer events cpu} before := by
    obtain ⟨-, all, -⟩ := before
    apply Reporter.Carries.returns
    rw [collected_snoc]
    exact all

end

/-! ## From the guest to the host -/

namespace Wire

section
variable {toJson : Json → Except IoError Text} {fromJson : Text → Except DecodeError Json}

theorem wholeLine_lineOf {status : Status} (lossless : Lossless toJson fromJson (Message.encode (.status status))) :
    WholeLine (lineOf toJson status) := by
  obtain ⟨free, chomped⟩ := lineOf_whole lossless
  refine ⟨fun none => ?_, free, chomped⟩
  obtain ⟨line, written, compact, -⟩ := lossless
  rw [lineOf_eq written] at none
  subst none
  exact object_nonempty compact rfl

theorem framesOf_texts (statuses : List Status) :
    framesOf toJson statuses = Io.framesOf (statuses.map fun status => encodeText (lineOf toJson status)) := by
  induction statuses with
  | nil => rfl
  | cons status statuses ih =>
    have first : framesOf toJson (status :: statuses) =
        encodeText (lineOf toJson status) ++ [newline] ++ framesOf toJson statuses := by
      rw [framesOf, List.flatMap_cons, encodeText_append, encodeText_append]
      rfl
    rw [first, ih]
    rfl

/-- A part of a status is not a status. -/
theorem told_part {status : Status} {part : Bytes}
    (lossless : Lossless toJson fromJson (Message.encode (.status status)))
    (oneText : ∀ line v, fromJson line = .ok v → JsonText (encodeText line))
    (isPrefix : part <+: encodeText (lineOf toJson status)) (nonempty : part ≠ [])
    (strict : part ≠ encodeText (lineOf toJson status)) : ∃ error, told fromJson (decodedLine part) = .error error := by
  have free : newline ∉ part := fun member => (wholeLine_lineOf lossless).bytes.1 (isPrefix.subset member)
  obtain ⟨line, written, compact, -⟩ := lossless
  rw [lineOf_eq written] at isPrefix strict
  have refused : ¬ JsonText part := not_text_of_cut_compact compact isPrefix nonempty strict
  cases decoded : fromUtf8 part with
  | none => exact ⟨_, by rw [decodedLine, decoded]; rfl⟩
  | some text =>
    have bytes := encodeText_fromUtf8 decoded
    have absent : '\n' ∉ text := fun member => free (bytes ▸ newline_encodeText.mpr member)
    cases parsed : fromJson text with
    | error cause =>
      refine ⟨.deserializing cause, ?_⟩
      rw [decodedLine, decoded]
      dsimp only
      rw [chompLine_free absent, told, received, parseMessage, parsed]
    | ok v => exact absurd (bytes ▸ oneText text v parsed) refused

theorem told_cut {statuses : List Status} (finite : ∀ status ∈ statuses, isFinite status.cpuPercent = true)
    (lossless : ∀ status ∈ statuses, Lossless toJson fromJson (Message.encode (.status status)))
    (oneText : ∀ line v, fromJson line = .ok v → JsonText (encodeText line)) {bytes : Bytes}
    (cut : bytes <+: framesOf toJson statuses) :
    let text (status : Status) := encodeText (lineOf toJson status)
    ∃ rest, (decodedLines bytes).map (told fromJson) =
        (Io.within text statuses bytes.length).map (.ok ∘ some) ++ rest ∧
      if Io.endsInside text statuses bytes.length then ∃ error, rest = [.error error] else rest = [] := by
  intro text
  have arrived : (Io.framesOf (statuses.map text)).take bytes.length = bytes := by
    rw [← framesOf_texts]
    exact (List.prefix_iff_eq_take.mp cut).symm
  have whole : ∀ status ∈ statuses, WholeLine (lineOf toJson status) := fun status member =>
    wholeLine_lineOf (lossless status member)
  obtain ⟨parts, leftover, decoded⟩ := decodedLines_cut whole bytes.length
  rw [arrived] at decoded
  refine ⟨(parts.map decodedLine).map (told fromJson), ?_, ?_⟩
  · rw [decoded, List.map_append, List.map_map]
    refine congrArg (· ++ _) (List.map_congr_left fun status member => ?_)
    have sent := Io.within_subset member
    exact received_lineOf (finite status sent) (lossless status sent)
  · generalize Io.endsInside text statuses bytes.length = inside at leftover
    cases leftover with
    | none => rfl
    | part cut =>
      obtain ⟨status, member, isPrefix, nonempty, strict⟩ := cut
      obtain ⟨error, failed⟩ := told_part (lossless status member) oneText isPrefix nonempty strict
      exact ⟨error, congrArg (fun told => [told]) failed⟩

end

end Wire

section
variable {σ : Type} {delivered held : σ → Bytes} {round : Rat → UInt64} {toJson : Json → Except IoError Text}
  {r : Reporter σ}

theorem Reporter.Carries.most (carries : r.Carries delivered held (reportsOf round toJson)) :
    reportsOf round toJson (collected r.events).statuses.dropLast <+: delivered r.writer ∧
      delivered r.writer <+: reportsOf round toJson (collected r.events).statuses := by
  obtain ⟨writer, phase, events⟩ := r
  cases phase with
  | initial =>
    obtain ⟨none, nothing, -⟩ := carries
    dsimp only at none nothing ⊢
    subst none
    rw [nothing]
    exact ⟨List.prefix_rfl, List.prefix_rfl⟩
  | sending cpu sending =>
    obtain ⟨-, most, all⟩ := carries
    rw [List.append_assoc] at all
    exact ⟨most, all ▸ List.prefix_append _ _⟩
  | resting cpu =>
    obtain ⟨-, all, -⟩ := carries
    exact ⟨all ▸ reportsOf_starts (List.dropLast_prefix _), all ▸ List.prefix_rfl⟩
  | returned result => exact ⟨carries.1, carries.2.1⟩

theorem Reporter.Carries.all (carries : r.Carries delivered held (reportsOf round toJson))
    (between : ∀ cpu sending, r.phase ≠ .sending cpu sending) (succeeded : ∀ error, .sendFailed error ∉ r.events) :
    delivered r.writer = reportsOf round toJson (collected r.events).statuses := by
  obtain ⟨writer, phase, events⟩ := r
  cases phase with
  | initial =>
    obtain ⟨none, nothing, -⟩ := carries
    dsimp only at none nothing ⊢
    subst none
    exact nothing
  | sending cpu sending => exact absurd rfl (between cpu sending)
  | resting cpu => exact carries.2.1
  | returned result => exact carries.2.2 succeeded

end

/-- Whatever the guest, the connection and the reader do, the host receives the
first of the reports, each whole and in order, then at most one error for one
that was cut, and then the end. If it has read what was delivered it is at most
one report behind, and not even that if no report is being sent and no send has
failed. -/
theorem reports_arrive {σ ρ : Type} (w : AsyncWrite σ) (delivered held : σ → Bytes)
    (buffers : Buffers w delivered held) (commits : Commits w delivered) (lines : LineReader ρ)
    (yields : ρ → List (Except IoError Text) → Prop) (faithful : lines.Faithful yields)
    (toJson : Json → Except IoError Text) (fromJson : Text → Except DecodeError Json)
    (oneText : ∀ line v, fromJson line = .ok v → JsonText (encodeText line)) (round : Rat → UInt64)
    (rounds : ∀ load, 0 ≤ load → load ≤ 100 → isFinite (round load) = true) (start : σ)
    (empty : delivered start = [] ∧ held start = []) (polls : List ReporterPoll) (r : Reporter σ)
    (run : execute (Reporter.poll w (reportJson round toJson)) (.new start) polls = some r)
    (lossless : ∀ status ∈ (collected r.events).statuses,
      Wire.Lossless toJson fromJson (Wire.Message.encode (.status (status.wire round))))
    (host : List ReadEvent) (steady : Agent.Steady host) (cut : streamOf host <+: delivered r.writer) :
    let reports := (collected r.events).statuses
    ∃ received rest,
      (∀ n, Wire.recvs lines fromJson (received.length + rest.length + n) (lines.new host) =
        received.map (.ok ∘ some ∘ Status.wire round) ++ rest ++ List.replicate n (.ok none)) ∧
      received <+: reports ∧ (rest = [] ∨ ∃ error, rest = [.error error]) ∧
      (streamOf host = delivered r.writer → reports.dropLast <+: received ∧
        ((∀ cpu sending, r.phase ≠ .sending cpu sending) → (∀ error, .sendFailed error ∉ r.events) →
          received = reports ∧ rest = [])) := by
  intro reports
  have carries : r.Carries delivered held (reportsOf round toJson) :=
    (carries_preserved buffers commits).run ⟨rfl, empty.1, empty.2⟩ run
  let sent (status : Wire.Status) := encodeText (Wire.lineOf toJson status)
  have frames (statuses : List Status) :
      reportsOf round toJson statuses = Io.framesOf (statuses.map (sent ∘ Status.wire round)) := by
    rw [reportsOf, Wire.framesOf_texts, List.map_map]
  have finite : ∀ status ∈ reports.map (Status.wire round), isFinite status.cpuPercent = true := fun _ member => by
    obtain ⟨status, collected, rfl⟩ := List.mem_map.mp member
    obtain ⟨least, greatest⟩ := collected_range collected
    exact rounds status.cpuPercent least greatest
  have written : ∀ status ∈ reports.map (Status.wire round),
      Wire.Lossless toJson fromJson (Wire.Message.encode (.status status)) := fun _ member => by
    obtain ⟨status, collected, rfl⟩ := List.mem_map.mp member
    exact lossless status collected
  -- The host reads a cut of the reports, so the theorem about cuts says what it gets.
  obtain ⟨rest, answers, ends⟩ := Wire.told_cut finite written oneText (cut.trans carries.most.2)
  rw [Io.within_map, List.map_map] at answers
  rw [Io.endsInside_map] at ends
  refine ⟨Io.within (sent ∘ Status.wire round) reports (streamOf host).length, rest, fun n => ?_, Io.within_starts _ _, ?_,
    fun all => ⟨?_, fun between succeeded => ?_⟩⟩
  · have received : Wire.recvs lines fromJson _ _ = _ := Wire.recvs_decodes faithful (faithful.start host steady) n
    have length := congrArg List.length answers
    rw [List.length_map, List.length_append, List.length_map] at length
    rw [answers, length] at received
    exact received
  · split at ends
    · exact .inr ends
    · exact .inl ends
  -- All reports but the last one are delivered, so they lie within the cut.
  · obtain ⟨last, split⟩ := List.dropLast_prefix reports
    have arrived := carries.most.1.length_le
    rw [frames, ← all] at arrived
    have most : reports.dropLast <+: Io.within (sent ∘ Status.wire round) (reports.dropLast ++ last) _ :=
      Io.prefix_within arrived
    rwa [split] at most
  · have whole : (streamOf host).length = (Io.framesOf (reports.map (sent ∘ Status.wire round))).length := by
      rw [all, carries.all between succeeded, frames]
    rw [whole, Io.endsInside_all] at ends
    rw [whole, Io.within_all]
    exact ⟨rfl, ends⟩

theorem Wire.holding_commits : Commits Wire.holding Prod.fst where
  write _ _ := List.prefix_rfl
  flush _ := List.prefix_append _ _

def Wire.plainText (v : Json) : Text := (print printZero v).map fun b => Char.ofNat b.toNat

/-- A parser that knows this text only. -/
def Wire.plainJson (v : Json) (line : Text) : Except DecodeError Json :=
  if plainText v = line then .ok v else .error .expectedValue

theorem Wire.plainText_bytes {v : Json} (ascii : isAscii (print printZero v) = true) :
    encodeText (plainText v) = print printZero v := encodeText_ascii ascii

theorem Wire.plain_lossless {v : Json} (ascii : isAscii (print printZero v) = true) :
    Lossless (fun v => .ok (plainText v)) (plainJson v) v :=
  ⟨_, rfl, plainText_bytes ascii ▸ print_compact printZero_number v, if_pos rfl⟩

theorem Wire.plain_jsonText {v : Json} (ascii : isAscii (print printZero v) = true) {line : Text} {read : Json}
    (parsed : plainJson v line = .ok read) : JsonText (encodeText line) := by
  unfold plainJson at parsed
  split at parsed
  · rename_i same
    rw [← same, plainText_bytes ascii]
    exact .of_compact (print_compact printZero_number v)
  · cases parsed

/-- What a guest reports of which everything can be read and nothing changes. -/
def idleStatus : Status := ⟨.running, 0, ⟨307200, 409600⟩, ⟨0, 0⟩, [⟨"/".toList, none, ⟨2457600, 4096000⟩⟩]⟩

def idleFrame : Bytes := reportsOf (fun _ => 0) (fun v => .ok (Wire.plainText v)) [idleStatus]

/-- Two reports, of which the first read ends in the middle of the first one. -/
def idleHost : List ReadEvent :=
  [.data ⟨idleFrame.take 9, by decide +kernel⟩, .pending, .data ⟨idleFrame.drop 9, by decide +kernel⟩,
    .data ⟨idleFrame, by decide +kernel⟩]

theorem Phase.isResting_between {phase : Phase} (resting : phase.isResting = true) (cpu : CpuSample)
    (sending : Sending) : phase ≠ .sending cpu sending := fun same => by
  rw [same] at resting
  cases resting

theorem sendFailed_ends {events : List ReportEvent} (calm : events.any ReportEvent.ends = false) (error : SendError) :
    .sendFailed error ∉ events := fun member => List.any_eq_false.mp calm _ member rfl

theorem reports_arrive_idle :
    let v := Wire.Message.encode (.status (idleStatus.wire fun _ => 0))
    ∃ r, execute (Reporter.poll Wire.holding (reportJson (fun _ => 0) (fun v => .ok (Wire.plainText v))))
        (.new ([], [])) [.first healthy (constantly healthy) [.slept (constantly healthy)]] = some r ∧
      (collected r.events).statuses = [idleStatus, idleStatus] ∧
      ∀ n, Wire.recvs BufferedLines.reader (Wire.plainJson v) (2 + n) (BufferedLines.reader.new idleHost) =
        [.ok (some (idleStatus.wire fun _ => 0)), .ok (some (idleStatus.wire fun _ => 0))] ++
          List.replicate n (.ok none) := by
  intro v
  have completes : (execute (Reporter.poll Wire.holding (reportJson (fun _ => 0) (fun v => .ok (Wire.plainText v))))
      (.new ([], [])) [.first healthy (constantly healthy) [.slept (constantly healthy)]]).map
      (fun r => ((collected r.events).statuses, r.phase.isResting, r.events.any ReportEvent.ends, r.writer.1)) =
      some ([idleStatus, idleStatus], true, false, streamOf idleHost) := by decide +kernel
  obtain ⟨r, run, ended⟩ := Option.map_eq_some_iff.mp completes
  obtain ⟨reports, ended⟩ := Prod.mk.inj ended
  obtain ⟨resting, ended⟩ := Prod.mk.inj ended
  obtain ⟨calm, delivers⟩ := Prod.mk.inj ended
  have ascii : isAscii (print Wire.printZero v) = true := by decide +kernel
  have lossless : ∀ status ∈ (collected r.events).statuses,
      Wire.Lossless (fun v => .ok (Wire.plainText v)) (Wire.plainJson v)
        (Wire.Message.encode (.status (status.wire fun _ => 0))) := by
    rw [reports]
    intro status member
    have same : status = idleStatus := by simpa using member
    rw [same]
    exact Wire.plain_lossless ascii
  obtain ⟨received, rest, answers, -, -, ends⟩ := reports_arrive Wire.holding Prod.fst Prod.snd Wire.holding_buffers
    Wire.holding_commits BufferedLines.reader BufferedLines.Decodes BufferedLines.faithful
    (fun v => .ok (Wire.plainText v)) (Wire.plainJson v) (fun _ _ => Wire.plain_jsonText ascii) (fun _ => 0)
    (fun _ _ _ => rfl) ([], []) ⟨rfl, rfl⟩ _ r run lossless idleHost (fun _ => by simp [idleHost])
    (delivers ▸ List.prefix_rfl)
  obtain ⟨rfl, rfl⟩ := (ends delivers.symm).2 (Phase.isResting_between resting) (sendFailed_ends calm)
  rw [reports] at answers
  exact ⟨r, run, reports, answers⟩

end MinimalVm.Liveness
