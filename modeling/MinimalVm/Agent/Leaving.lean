import MinimalVm.Agent.Delivering

/-! How the agent leaves its connection.

The buffer is flushed before it is taken, and by then nobody else sends, so
closing has nothing left to write. Only a flush that fails while the agent
closes leaves bytes to be written out in the background.
-/

set_option autoImplicit false

namespace MinimalVm.Agent

open MinimalVm.Semantics MinimalVm.Protocol MinimalVm.Io

section
variable {ρ σ : Type} [MessageReader ρ] {w : AsyncWrite σ} {test : Bool} {toVec : Message → Except SerializeError Bytes}
  {debug : Message → String} {s t : Served ρ σ}

/-- The flush that closing begins with fails. -/
def Served.refused (w : AsyncWrite σ) (s : Served ρ σ) : ServedStep σ → Bool
  | .leave =>
    match s.leaving, (s.tx.pollFlush w.recording).1 with
    | .closing .flushing, .ready (.error _) => true
    | _, _ => false
  | .act _ | .send _ | .exit | .writer _ => false

/-- Nothing is written out behind the back of main, and nothing is lost. -/
def Leaving.Clean : Leaving σ → Prop
  | .background _ => False
  | .returned _ lost => lost = []
  | .serving | .flushing | .closing _ | .flushingOut _ | .shuttingOut _ => True

theorem Served.finish_leaving {accepted lost : Bytes} (moved : s.finish accepted lost = some t) :
    t.leaving = .returned accepted lost := by
  obtain ⟨agent, -, rfl⟩ := Option.map_eq_some_iff.mp moved
  rfl

theorem Served.closing_clean {agent : Agent ρ} {tx tx' : Tx (Recorded σ)} {futures : Task → DoSend}
    {closing closing' : Closing (Recorded σ)} (stands : (Leaving.closing closing).Stands tx)
    (unrefused : (⟨agent, tx, futures, .closing closing⟩ : Served ρ σ).refused w .leave = false)
    (turned : closing.turn w.recording tx = some (tx', closing'))
    (closed : (⟨agent, tx', futures, .closing closing⟩ : Served ρ σ).closed closing' = some t) : t.leaving.Clean := by
  cases closing with
  | flushing =>
    simp only [Closing.turn] at turned
    split at turned
    · cases turned
      cases closed
      trivial
    · rename_i polled
      simp only [Served.refused, polled] at unrefused
      cases unrefused
    · cases turned
      cases closed
      trivial
  | flushed =>
    obtain ⟨shut | this⟩ := tx
    · cases stands.1
    · cases turned
      cases closed
      trivial
  | writing this | shutting this =>
    have nothing : this.transmitting = [] := stands
    cases (Closing.turn_writesOut w rfl turned).2 with
    | writing | shutting | closed =>
      cases closed
      trivial
    | failed =>
      rw [Served.finish_leaving closed]
      exact nothing
  | closed result => cases stands

theorem Sound.clean {label : ServedStep σ} (sound : Sound toVec s) (clean : s.leaving.Clean)
    (unrefused : s.refused w label = false) (moved : s.step w test toVec debug label = some t) : t.leaving.Clean := by
  cases label with
  | act action =>
    simp only [Served.step] at moved
    split at moved
    · obtain ⟨agent, -, rfl⟩ := Option.map_eq_some_iff.mp moved
      exact clean
    · cases moved
  | send task =>
    simp only [Served.step] at moved
    split at moved
    · obtain ⟨polled, agent, tx, future, -, -, result⟩ := sound.polls w test debug ‹_›
      obtain rfl := Option.some.inj (result.symm.trans moved)
      exact clean
    · cases moved
  | leave =>
    have stands := sound.stands
    obtain ⟨agent, tx, futures, leaving⟩ := s
    cases leaving with
    | serving | flushing | flushingOut writer =>
      simp only [Served.step, Served.leave] at moved
      split at moved <;> cases moved <;> trivial
    | shuttingOut writer =>
      simp only [Served.step, Served.leave] at moved
      split at moved
      · cases moved
        trivial
      · rw [Served.finish_leaving moved]
        rfl
    | closing closing =>
      obtain ⟨turned, turns, closed⟩ := Option.bind_eq_some_iff.mp moved
      exact Served.closing_clean stands unrefused turns closed
    -- A clean end never gets here.
    | background closing => cases clean
    | returned accepted lost => cases moved
  | exit =>
    simp only [Served.step] at moved
    split at moved
    · rename_i leaving
      rw [leaving] at clean
      cases clean
    · cases moved
  | writer state =>
    cases moved
    cases leaving : s.leaving <;> (rw [leaving] at clean; exact clean)

end

/-- Unless closing finds that it cannot flush, nothing is lost when main returns. -/
theorem closing_loses_nothing {ρ σ : Type} [MessageReader ρ] (w : AsyncWrite σ) (test : Bool)
    (toVec : Message → Except SerializeError Bytes) (debug : Message → String) (reader : ρ) (state : σ)
    (steps : List (ServedStep σ)) (s : Served ρ σ) (accepted lost : Bytes)
    (unrefused : Throughout (Served.step w test toVec debug) (fun s label => s.refused w label = false)
      (.new reader state) steps)
    (run : execute (Served.step w test toVec debug) (.new reader state) steps = some s)
    (returned : s.leaving = .returned accepted lost) : lost = [] ∧ Framed toVec s.agent.log accepted := by
  have both : Sound toVec s ∧ s.leaving.Clean := by
    apply invariant_throughout (fun s => Sound toVec s ∧ s.leaving.Clean) ?_ ⟨.start reader state, trivial⟩ unrefused run
    exact fun _ _ _ before met moved => ⟨before.1.step moved, before.1.clean before.2 met moved⟩
  obtain ⟨sound, clean⟩ := both
  rw [returned] at clean
  have nothing : lost = [] := clean
  subst nothing
  have wire := sound.wire
  simp only [Served.accepted, Served.unwritten, returned, List.append_nil] at wire
  exact ⟨rfl, wire⟩

def Leaving.returned? {σ : Type} : Leaving σ → Option (Bytes × Bytes)
  | .returned accepted lost => some (accepted, lost)
  | .serving | .flushing | .closing _ | .flushingOut _ | .shuttingOut _ | .background _ => none

theorem Leaving.returned?_some {σ : Type} {leaving : Leaving σ} {accepted lost : Bytes}
    (returned : leaving.returned? = some (accepted, lost)) : leaving = .returned accepted lost := by
  match leaving, returned with
  | .returned _ _, rfl => rfl

def returning : List (ServedStep (List (Poll (Except IoError Nat)))) :=
  exiting ++ [.act (.stdin .recv), .send .stdin, .act (.output .stdout (.select true false)), .send (.output .stdout),
    .act (.output .stderr (.select true false)), .send (.output .stderr), .act .join] ++ List.replicate 7 .leave

theorem closing_loses_nothing_returning :
    ∃ (s : Served Connection (List (Poll (Except IoError Nat)))) (accepted lost : Bytes),
      s.leaving = .returned accepted lost ∧ s.agent.log.length = 5 ∧
      lost = [] ∧ Framed messageText s.agent.log accepted := by
  have completes : (execute (Served.step scripted false messageText (fun _ => "")) echoServed returning).map
      (fun s => (s.leaving.returned?.isSome, s.agent.log.length)) = some (true, 5) := by decide +kernel
  have unrefused : Throughout (Served.step scripted false messageText (fun _ => ""))
      (fun s label => s.refused scripted label = false) echoServed returning := by decide +kernel
  obtain ⟨s, run, reached⟩ := Option.map_eq_some_iff.mp completes
  obtain ⟨ended, length⟩ := Prod.mk.inj reached
  obtain ⟨⟨accepted, lost⟩, same⟩ := Option.isSome_iff_exists.mp ended
  have returned := Leaving.returned?_some same
  exact ⟨s, accepted, lost, returned, length,
    closing_loses_nothing scripted false messageText (fun _ => "") _ hesitant returning s accepted lost unrefused run
      returned⟩

end MinimalVm.Agent
