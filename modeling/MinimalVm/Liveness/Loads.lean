import MinimalVm.Liveness.CpuLoad
import MinimalVm.Liveness.Looping
import MinimalVm.Liveness.Outcome
import Mathlib.Data.List.Induction

/-! The loads of successive reports.

Every report is measured against the counters that the one before it has read,
so the reports of a run account for all of the time since the first sample, and
for none of it twice.
-/

set_option autoImplicit false

namespace MinimalVm.Liveness

open MinimalVm.Semantics

/-! ## What a run collects -/

def ReportEvent.snapshot? : ReportEvent → Option ProcStat
  | .sampled guest => (readProcStat guest).toOption
  | .began guests => (readProcStat guests.cpu).toOption
  | .sendFailed _ | .shutdown => none

def snapshots (events : List ReportEvent) : List ProcStat := events.filterMap ReportEvent.snapshot?

/-- The sample that the next report is measured against, and the statuses so far. -/
structure Collected where
  cpu : Option CpuSample
  statuses : List Status

def Collected.after (this : Collected) : ReportEvent → Collected
  | .sampled guest => { this with cpu := (cpuSample guest).toOption }
  | .began guests =>
    match this.cpu with
    | none => this
    | some cpu =>
      match collect guests cpu with
      | (.error _, cpu) => { this with cpu := some cpu }
      | (.ok status, cpu) => ⟨some cpu, this.statuses ++ [status]⟩
  | .sendFailed _ | .shutdown => this

def collected (events : List ReportEvent) : Collected := events.foldl Collected.after ⟨none, []⟩

theorem collected_snoc (events : List ReportEvent) (event : ReportEvent) :
    collected (events ++ [event]) = (collected events).after event := by
  rw [collected, List.foldl_append]
  rfl

theorem snapshots_snoc (events : List ReportEvent) (event : ReportEvent) :
    snapshots (events ++ [event]) = snapshots events ++ event.snapshot?.toList := by
  rw [snapshots, List.filterMap_append, ← snapshots]
  cases read : event.snapshot? <;> simp [read]

section
variable {events : List ReportEvent} {guests : Guests} {cpu cpu' : CpuSample}

theorem collected_completes {status : Status} (read : (collected events).cpu = some cpu)
    (collects : collect guests cpu = (.ok status, cpu')) :
    collected (events ++ [.began guests]) = ⟨some cpu', (collected events).statuses ++ [status]⟩ := by
  simp only [collected_snoc, Collected.after, read, collects]

theorem collected_fails {error : MetricsError} (read : (collected events).cpu = some cpu)
    (collects : collect guests cpu = (.error error, cpu')) :
    collected (events ++ [.began guests]) = ⟨some cpu', (collected events).statuses⟩ := by
  simp only [collected_snoc, Collected.after, read, collects]

theorem collected_samples {guest : Guest} (sampled : cpuSample guest = .ok cpu) :
    collected [.sampled guest] = ⟨some cpu, []⟩ := by
  rw [collected, List.foldl_cons, Collected.after, sampled]
  rfl

end

/-- What collecting makes of the sample: the counters that were read, if they
were, and the load is measured between the two. -/
inductive Collects (guests : Guests) (cpu : CpuSample) : Except MetricsError Status × CpuSample → Prop
  | unread {error : MetricsError} : (readProcStat guests.cpu).toOption = none → Collects guests cpu (.error error, cpu)
  | failed {error : MetricsError} {second : ProcStat} : readProcStat guests.cpu = .ok second →
      Collects guests cpu (.error error, ⟨second⟩)
  | complete {status : Status} {second : ProcStat} : readProcStat guests.cpu = .ok second →
      status.cpuPercent = cpuPercent cpu.first second → Collects guests cpu (.ok status, ⟨second⟩)

theorem collect_collects (guests : Guests) (cpu : CpuSample) : Collects guests cpu (collect guests cpu) := by
  unfold collect sample
  cases reads : readProcStat guests.cpu with
  | error error => exact .unread (by rw [reads]; rfl)
  | ok second =>
    cases memory guests.memory with
    | error error => exact .failed reads
    | ok memory =>
      cases swap guests.swap with
      | error error => exact .failed reads
      | ok swap =>
        cases disks guests.disks with
        | error error => exact .failed reads
        | ok disks => exact .complete reads rfl

theorem cpuPercent_range (first second : ProcStat) : 0 ≤ cpuPercent first second ∧ cpuPercent first second ≤ 100 := by
  unfold cpuPercent
  dsimp only
  split
  · norm_num
  · exact ⟨le_max_left _ _, max_le (by norm_num) (min_le_right _ _)⟩

theorem collected_range {events : List ReportEvent} {status : Status} (member : status ∈ (collected events).statuses) :
    0 ≤ status.cpuPercent ∧ status.cpuPercent ≤ 100 := by
  induction events using List.reverseRecOn with
  | nil => cases member
  | append_singleton events event ih =>
    rw [collected_snoc] at member
    cases event with
    | sampled guest => exact ih member
    | sendFailed error | shutdown => exact ih member
    | began guests =>
      cases cpuRead : (collected events).cpu with
      | none =>
        rw [Collected.after, cpuRead] at member
        exact ih member
      | some cpu =>
        have collecting := collect_collects guests cpu
        rw [Collected.after, cpuRead] at member
        dsimp only at member
        generalize collect guests cpu = collects at collecting member
        cases collecting with
        | unread | failed => exact ih member
        | @complete status' second reads load =>
          rcases List.mem_append.mp member with earlier | last
          · exact ih earlier
          · rw [List.mem_singleton.mp last, load]
            exact cpuPercent_range _ _

/-! ## Consecutive measurements -/

def loadsBetween : ProcStat → List ProcStat → List Rat
  | _, [] => []
  | first, second :: rest => cpuPercent first second :: loadsBetween second rest

theorem loadsBetween_snoc (first : ProcStat) (rest : List ProcStat) (last : ProcStat) :
    loadsBetween first (rest ++ [last]) = loadsBetween first rest ++ [cpuPercent (rest.getLastD first) last] := by
  induction rest generalizing first with
  | nil => rfl
  | cons second rest ih => rw [List.cons_append, loadsBetween, loadsBetween, ih, List.getLastD_cons]; rfl

theorem loadsBetween_length (first : ProcStat) (rest : List ProcStat) :
    (loadsBetween first rest).length = rest.length := by
  induction rest generalizing first with
  | nil => rfl
  | cons second rest ih => rw [loadsBetween, List.length_cons, ih, List.length_cons]

theorem loadsBetween_take (first : ProcStat) (rest : List ProcStat) (n : Nat) :
    (loadsBetween first rest).take n = loadsBetween first (rest.take n) := by
  induction rest generalizing first n with
  | nil => rw [List.take_nil, loadsBetween, List.take_nil]
  | cons second rest ih =>
    cases n with
    | zero => rfl
    | succ n => rw [loadsBetween, List.take_succ_cons, ih, List.take_succ_cons, loadsBetween]

/-- The loads of a run are those between the snapshots that it has read. Only the
last of them may have no report, of a run that has returned. -/
def Measures {σ : Type} (r : Reporter σ) : Prop :=
  let loads := (collected r.events).statuses.map Status.cpuPercent
  match r.phase with
  | .initial => r.events = []
  | .sending cpu _ | .resting cpu => (collected r.events).cpu = some cpu ∧
      ∃ first rest, snapshots r.events = first :: rest ∧ cpu.first = rest.getLastD first ∧ loads = loadsBetween first rest
  | .returned _ => ∀ first rest, snapshots r.events = first :: rest →
      loads <+: loadsBetween first rest ∧ rest.length ≤ loads.length + 1

section
variable {σ : Type} {events : List ReportEvent} {writer : σ}

theorem Measures.ends {cpu : CpuSample} {event : ReportEvent}
    (before : Measures (⟨writer, .resting cpu, events⟩ : Reporter σ)) (unread : event.snapshot? = none)
    (same : ∀ c : Collected, c.cpu = some cpu → (c.after event).statuses = c.statuses)
    (result : Except MetricsError Unit) (writer' : σ) :
    Measures (⟨writer', .returned result, events ++ [event]⟩ : Reporter σ) := by
  obtain ⟨cpuRead, first, rest, read, -, loads⟩ := before
  intro first' rest' read'
  rw [snapshots_snoc, unread, read, Option.toList_none, List.append_nil] at read'
  obtain ⟨rfl, rfl⟩ := List.cons.inj read'
  dsimp only
  rw [collected_snoc, same _ cpuRead, loads, loadsBetween_length]
  exact ⟨List.prefix_rfl, Nat.le_succ _⟩

theorem Measures.begins {cpu cpu' : CpuSample} {guests : Guests} {status : Status}
    (before : Measures (⟨writer, .resting cpu, events⟩ : Reporter σ)) (collects : collect guests cpu = (.ok status, cpu')) :
    Measures (⟨writer, .resting cpu', events ++ [.began guests]⟩ : Reporter σ) := by
  obtain ⟨cpuRead, first, rest, read, last, loads⟩ := before
  have collecting := collect_collects guests cpu
  rw [collects] at collecting
  have after := collected_completes cpuRead collects
  cases collecting with
  | @complete _ second reads load =>
    have snapshot : (ReportEvent.began guests).snapshot? = some second := by
      rw [ReportEvent.snapshot?, reads]
      rfl
    refine ⟨congrArg Collected.cpu after, first, rest ++ [second], ?_, ?_, ?_⟩
    · rw [snapshots_snoc, read, snapshot]
      rfl
    · rw [List.getLastD_concat]
    · dsimp only
      rw [after, loadsBetween_snoc, List.map_append, loads, ← last, ← load]
      rfl

theorem measures_preserved (w : AsyncWrite σ) (toJson : Status → Except IoError Bytes) :
    Preserved w toJson Measures where
  unsampled {writer events guest error} before failed := by
    have none : events = [] := before
    subst none
    intro first rest read
    have unread : (ReportEvent.sampled guest).snapshot? = none := by
      simp only [cpuSample] at failed
      cases reads : readProcStat guest with
      | error cause => simp only [ReportEvent.snapshot?, reads]; rfl
      | ok second => rw [reads] at failed; cases failed
    rw [snapshots_snoc, unread] at read
    cases read
  samples {writer events guest cpu} before sampled := by
    have none : events = [] := before
    subst none
    have read := collected_samples sampled
    rw [cpuSample] at sampled
    cases reads : readProcStat guest with
    | error cause =>
      rw [reads] at sampled
      cases sampled
    | ok first =>
      rw [reads] at sampled
      cases sampled
      rw [Measures, List.nil_append, read]
      refine ⟨rfl, first, [], ?_, rfl, rfl⟩
      rw [snapshots, List.filterMap_cons, ReportEvent.snapshot?, reads]
      rfl
  -- The counters may have been read before the collection failed. They have no report then.
  uncollected {writer events cpu cpu' guests error} before collects := by
    have collecting := collect_collects guests cpu
    rw [collects] at collecting
    have same (c : Collected) (read : c.cpu = some cpu) : (c.after (.began guests)).statuses = c.statuses := by
      simp only [Collected.after, read, collects]
    cases collecting with
    | unread unread =>
      have nothing : (ReportEvent.began guests).snapshot? = none := unread
      exact before.ends nothing same _ _
    | @failed _ second reads =>
      obtain ⟨cpuRead, first, rest, read, -, loads⟩ := before
      intro first' rest' read'
      have snapshot : (ReportEvent.began guests).snapshot? = some second := by
        rw [ReportEvent.snapshot?, reads]
        rfl
      rw [snapshots_snoc, read, snapshot, Option.toList_some, List.cons_append] at read'
      obtain ⟨rfl, rfl⟩ := List.cons.inj read'
      dsimp only
      rw [collected_snoc, same _ cpuRead, loads, loadsBetween_snoc, loadsBetween_length, List.length_append,
        List.length_singleton]
      exact ⟨List.prefix_append _ _, Nat.le_refl _⟩
  unserialized before collects _ := (before.begins collects).ends rfl (fun _ _ => rfl) _ _
  begins before collects _ := before.begins collects
  waits before _ := before
  fails {writer writer' events cpu sending sending' error} before _ := by
    have rested : Measures (⟨writer, .resting cpu, events⟩ : Reporter σ) := before
    exact rested.ends rfl (fun _ _ => rfl) _ _
  sent before _ := before
  shuts before := before.ends rfl (fun _ _ => rfl) _ _

end

/-! ## Nothing is left out -/

/-- Time has passed, and no more of it was idle than there was. -/
def Advances (first second : ProcStat) : Prop :=
  first.total < second.total ∧ first.idle ≤ second.idle ∧
    increase first.idle second.idle ≤ increase first.total second.total

/-- The time that loads between consecutive snapshots account for, in percent. -/
def accounted : ProcStat → List ProcStat → List Rat → Rat
  | first, second :: rest, load :: loads => load * increase first.total second.total + accounted second rest loads
  | _, [], _ | _, _ :: _, [] => 0

theorem increase_add (a b c : UInt64) : increase a b + increase b c = increase a c := by
  unfold increase
  ring

theorem readProcStat_idle {guest : Guest} {p : ProcStat} (reads : readProcStat guest = .ok p) : p.idle ≤ p.total := by
  unfold readProcStat at reads
  split at reads
  · cases reads
  · rename_i stat _
    split at reads
    · cases reads
    · rename_i parsed found
      cases reads
      obtain ⟨line, -, parses⟩ := List.exists_of_findSome?_eq_some found
      exact ProcStat.parse_idle parses

theorem snapshot_idle {event : ReportEvent} {p : ProcStat} (read : event.snapshot? = some p) : p.idle ≤ p.total := by
  have of_read {guest : Guest} (read : (readProcStat guest).toOption = some p) : p.idle ≤ p.total := by
    cases reads : readProcStat guest with
    | error error =>
      rw [reads] at read
      cases read
    | ok second =>
      rw [reads] at read
      cases read
      exact readProcStat_idle reads
  cases event with
  | sampled guest => exact of_read read
  | began guests => exact of_read read
  | sendFailed error | shutdown => cases read

theorem snapshots_idle {events : List ReportEvent} {p : ProcStat} (member : p ∈ snapshots events) :
    p.idle ≤ p.total := by
  obtain ⟨event, -, read⟩ := List.mem_filterMap.mp member
  exact snapshot_idle read

theorem Advances.load {first second : ProcStat} (advances : Advances first second) (before : first.idle ≤ first.total)
    (after : second.idle ≤ second.total) :
    cpuPercent first second * increase first.total second.total =
      100 * (increase first.total second.total - increase first.idle second.idle) := by
  obtain ⟨total, idle, less⟩ := advances
  have positive := increase_pos total
  rw [cpuPercent_share before after total idle, busyShare, max_eq_right (by linarith), div_mul_cancel₀ _ positive.ne']

theorem Advances.trans {first second third : ProcStat} (one : Advances first second) (two : Advances second third) :
    Advances first third := by
  obtain ⟨total, idle, less⟩ := one
  obtain ⟨total', idle', less'⟩ := two
  have totals := increase_add first.total second.total third.total
  have idles := increase_add first.idle second.idle third.idle
  refine ⟨UInt64.lt_trans total total', UInt64.le_trans idle idle', ?_⟩
  linarith

theorem accounted_loads {first : ProcStat} {rest : List ProcStat} (fits : ∀ p ∈ first :: rest, p.idle ≤ p.total)
    (chain : (first :: rest).IsChain Advances) :
    accounted first rest (loadsBetween first rest) =
      100 * (increase first.total (rest.getLastD first).total - increase first.idle (rest.getLastD first).idle) := by
  induction rest generalizing first with
  | nil =>
    show (0 : Rat) = 100 * ((first.total.toNat - first.total.toNat : Rat) - (first.idle.toNat - first.idle.toNat : Rat))
    ring
  | cons second rest ih =>
    obtain ⟨advances, later⟩ := List.isChain_cons_cons.mp chain
    have before := fits first List.mem_cons_self
    have after := fits second (by simp)
    rw [loadsBetween, accounted, advances.load before after,
      ih (fun p member => fits p (List.mem_cons_of_mem first member)) later, List.getLastD_cons]
    have totals := increase_add first.total second.total (rest.getLastD second).total
    have idles := increase_add first.idle second.idle (rest.getLastD second).idle
    rw [← totals, ← idles]
    ring

theorem chain_advances {first : ProcStat} {rest : List ProcStat} (some : rest ≠ [])
    (chain : (first :: rest).IsChain Advances) : Advances first (rest.getLastD first) := by
  induction rest generalizing first with
  | nil => exact absurd rfl some
  | cons second rest ih =>
    obtain ⟨advances, later⟩ := List.isChain_cons_cons.mp chain
    rw [List.getLastD_cons]
    by_cases last : rest = []
    · subst last
      exact advances
    · exact advances.trans (ih last later)

/-- The loads that a run has reported are those between the consecutive snapshots
that it has read, but for at most the last one, which no report may have come of.
Where the counters go on in every step, they account for the time from the first
of these snapshots to the last as one load over all of it would. -/
theorem loads_cover {σ : Type} (w : AsyncWrite σ) (toJson : Status → Except IoError Bytes) (writer : σ)
    (polls : List ReporterPoll) (r : Reporter σ)
    (run : execute (Reporter.poll w toJson) (.new writer) polls = some r) (first : ProcStat) (rest : List ProcStat)
    (read : snapshots r.events = first :: rest) :
    let loads := (collected r.events).statuses.map Status.cpuPercent
    let seen := rest.take loads.length
    loads = loadsBetween first seen ∧ rest.length ≤ loads.length + 1 ∧
      ((first :: seen).IsChain Advances → seen ≠ [] → accounted first seen loads =
        cpuPercent first (seen.getLastD first) * increase first.total (seen.getLastD first).total) := by
  intro loads seen
  have measures : Measures r := (measures_preserved w toJson).run rfl run
  have ⟨starts, covers⟩ : loads <+: loadsBetween first rest ∧ rest.length ≤ loads.length + 1 := by
    obtain ⟨writer', phase, events⟩ := r
    cases phase with
    | initial =>
      have none : events = [] := measures
      subst none
      cases read
    | sending cpu sending | resting cpu =>
      obtain ⟨-, first', rest', read', -, same⟩ := measures
      obtain ⟨rfl, rfl⟩ := List.cons.inj (read'.symm.trans read)
      have length := congrArg List.length same
      rw [loadsBetween_length] at length
      exact ⟨same ▸ List.prefix_rfl, length ▸ Nat.le_succ _⟩
    -- Here the last snapshot may have no report.
    | returned result => exact measures first rest read
  have same : loads = loadsBetween first seen := by
    rw [← loadsBetween_take]
    exact List.prefix_iff_eq_take.mp starts
  refine ⟨same, covers, fun chain some => ?_⟩
  have fits : ∀ p ∈ first :: seen, p.idle ≤ p.total := fun p member => by
    apply snapshots_idle
    rw [read]
    exact (List.cons_sublist_cons.mpr (List.take_sublist _ _)).mem member
  have advances := chain_advances some chain
  have last := fits (seen.getLastD first) List.getLastD_mem_cons
  rw [same, accounted_loads fits chain, advances.load (fits first List.mem_cons_self) last]

instance (first second : ProcStat) : Decidable (Advances first second) :=
  inferInstanceAs (Decidable (_ ∧ _ ∧ _))

def counting (line : String) : Guest :=
  { healthy with readToString := fun path => if path = "/proc/stat" then .ok line.toList else healthy.readToString path }

/-- Half of the first interval is busy, and a quarter of the second one, which is
three times as long. -/
def measured : List ReporterPoll :=
  [.first (counting "cpu  100 0 0 100\n") (constantly (counting "cpu  150 0 0 150\n"))
    [.slept (constantly (counting "cpu  225 0 0 375\n")), .shutdown]]

theorem loads_cover_measured :
    ∃ r, execute (Reporter.poll scripted terse) (.new (List.replicate 2 [.ready (.ok 2), .ready (.ok 1)]).flatten)
        measured = some r ∧
      snapshots r.events = [⟨200, 100⟩, ⟨300, 150⟩, ⟨600, 375⟩] ∧
      (collected r.events).statuses.map Status.cpuPercent = [50, 25] ∧
      accounted ⟨200, 100⟩ [⟨300, 150⟩, ⟨600, 375⟩] [50, 25] = cpuPercent ⟨200, 100⟩ ⟨600, 375⟩ * increase 200 600 := by
  have completes : (execute (Reporter.poll scripted terse)
      (.new (List.replicate 2 [.ready (.ok 2), .ready (.ok 1)]).flatten) measured).map
      (fun r => (snapshots r.events, (collected r.events).statuses.map Status.cpuPercent)) =
      some ([⟨200, 100⟩, ⟨300, 150⟩, ⟨600, 375⟩], [50, 25]) := by decide +kernel
  obtain ⟨r, run, ended⟩ := Option.map_eq_some_iff.mp completes
  obtain ⟨read, loads⟩ := Prod.mk.inj ended
  have cover := (loads_cover scripted terse _ measured r run ⟨200, 100⟩ [⟨300, 150⟩, ⟨600, 375⟩] read).2.2
  rw [loads] at cover
  exact ⟨r, run, read, loads, cover (by decide +kernel) (by decide)⟩

end MinimalVm.Liveness
