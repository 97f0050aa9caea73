/-
Turns of starts and polls of one handoff that run at the same time
(`vellum-remote-agent/src/handoff.rs`).  A poll that saves late, without the
lock, may take the record back to an adopted thread; the next start resumes
the thread and finds the turn.
-/
import Vellum.Agent.HandoffInterleaving

namespace Vellum.Agent

open List Option

/-- What is assumed of the daemon when calls overlap: it says that a thread is
not materialized, or resumes it without a turn, only while it has accepted no
turn of the handoff. -/
def Host.Shows (crates : HandoffCrates) (host : Host) :
    (op : HandoffOp) → HandoffAnswer op → Prop
  | .rpc method _, .error message =>
    method = "thread/read" → notMaterialized crates message = true →
      host.accepted = []
  | .rpc method _, .ok response =>
    showsNoTurns method response = true → host.accepted = []
  | _, _ => True

/-- The daemon shows what it has accepted to every call. -/
def HandoffSystem.DaemonShows (crates : HandoffCrates)
    (system : HandoffSystem) : HandoffAction → Prop
  | .answer i outcome => ∀ explicit op next view answer host,
    system.calls[i]? = some ⟨explicit, .call op next, view⟩ →
    system.host.serve explicit op outcome = some (answer, host) →
      system.host.Shows crates op answer
  | _ => True

/-- The record that stands may have a turn. -/
def Host.MayHaveTurn (host : Host) : Prop :=
  ∃ record, host.record = some record ∧ record.phase.mayHaveTurn = true

/-- At most one turn was accepted, and the record does not deny it. -/
def Host.TurnAtMostOnce (host : Host) : Prop :=
  host.accepted = [] ∨ host.accepted.length = 1 ∧ host.MayHaveTurn

/-- What the call that holds the lock knows of turns. -/
structure Host.KnownTurns (host : Host) (view : View) : Prop where
  ready : view.ready = true → host.accepted = [] ∧ host.MayHaveTurn
  denied : view.denied = true → host.accepted = []
  unstarted : view.knowledge.unstarted = true → host.accepted = []

def Host.TurnsKnown (host : Host) (view : View) : Prop :=
  view.locked = true → host.KnownTurns view

section Overlap

variable {crates : HandoffCrates} {explicit : Bool} {host after : Host}
  {view : View} {op : HandoffOp} {outcome : Outcome} {answer : HandoffAnswer op}

/-- The record that a call writes when a turn was accepted may have it. -/
theorem writes_mayHaveTurn {record : Record} (hfits : host.TurnsKnown view)
    (hallows : view.Allows explicit (.writeRecord record)) :
    host.accepted = [] ∨ record.phase.mayHaveTurn = true := by
  rcases hallows.write_cases with
    ⟨habsent, hstart⟩ | ⟨base, hstored, hrecord⟩
  · refine Or.inl ((hfits (hallows.1 hstart)).unstarted ?_)
    rw [habsent]
    rfl
  · rcases hrecord.mayHaveTurn with hmay | ⟨hstart, hdenied⟩
    · exact Or.inr hmay
    · have hturns := hfits (hallows.1 hstart)
      by_cases hbase : base.phase.mayHaveTurn = true
      · exact Or.inl (hturns.denied (hdenied hbase))
      · refine Or.inl (hturns.unstarted ?_)
        rw [hstored, Knowledge.unstarted, Bool.not_eq_true']
        exact Bool.eq_false_iff.mpr hbase

/-- Without a turn, the daemon leaves the host as it is. -/
theorem processed_of_ne {method : String} (hmethod : method ≠ "turn/start")
    (host : Host) (params : Json) : host.processed method params = host := by
  rw [Host.processed, if_neg hmethod]

/-- A turn is denied by an answer only while there is none. -/
theorem denied_afterRpc {method : String} {params : Json}
    {answer : Except String Json}
    (hshows : host.Shows crates (.rpc method params) answer)
    (hdenied : (view.afterRpc crates method params answer).denied = true) :
    method ≠ "turn/start" ∧ (view.denied = true ∨ host.accepted = []) := by
  cases answer with
  | ok response =>
    rw [View.afterRpc] at hdenied
    split at hdenied
    · cases hdenied
    · simp only [View.denied, Bool.or_eq_true] at hdenied ⊢
      rcases hdenied with hunstarted | hresumed | hempty
      · exact ⟨‹_›, Or.inl (Or.inl hunstarted)⟩
      · exact ⟨‹_›, Or.inl (Or.inr hresumed)⟩
      · exact ⟨‹_›, Or.inr (hshows hempty)⟩
  | error message =>
    rw [View.afterRpc] at hdenied
    split at hdenied
    · cases hdenied
    · refine ⟨‹_›, ?_⟩
      split at hdenied
      · rename_i hread
        rw [Bool.and_eq_true, decide_eq_true_eq] at hread
        exact Or.inr (hshows hread.1 hread.2)
      · exact Or.inl hdenied

/-- What a call knows fits the host behind an answer of the daemon. -/
theorem turnsKnown_afterRpc {method : String} {params : Json}
    {answer : Except String Json} (hfits : host.TurnsKnown view)
    (hallows : view.Allows explicit (.rpc method params))
    (hshows : host.Shows crates (.rpc method params) answer)
    (hsame : method ≠ "turn/start" → after = host) :
    after.TurnsKnown (view.afterRpc crates method params answer) := by
  intro hlocked
  obtain ⟨hknowledge, hlock⟩ := knowledge_afterRpc view method params answer
  have hturns := hfits (hlock.symm.trans hlocked)
  by_cases hmethod : method = "turn/start"
  · obtain ⟨-, -, record, id, hstored, hphase, -⟩ := hallows hmethod
    refine ⟨fun hready => absurd hmethod (ready_afterRpc hready).1,
      fun hdenied => absurd hmethod (denied_afterRpc hshows hdenied).1, ?_⟩
    rw [hknowledge, hstored, Knowledge.unstarted, hphase]
    rintro ⟨⟩
  · rw [hsame hmethod]
    refine ⟨fun hready => hturns.ready (ready_afterRpc hready).2, ?_, ?_⟩
    · intro hdenied
      exact (denied_afterRpc hshows hdenied).2.elim hturns.denied id
    · rw [hknowledge]
      exact hturns.unstarted

/-- What a call knows fits the record that it has written. -/
theorem turnsKnown_afterWrite {record : Record} (hfits : host.TurnsKnown view)
    (hmay : host.accepted = [] ∨ record.phase.mayHaveTurn = true) :
    (host.put explicit record).TurnsKnown (view.afterWrite record) := by
  intro hlocked
  have hturns := hfits hlocked
  refine ⟨?_, hturns.denied, ?_⟩
  · intro hready
    obtain ⟨hunstarted, hphase⟩ := Bool.and_eq_true_iff.mp hready
    refine ⟨hturns.unstarted hunstarted, record, rfl, ?_⟩
    rw [of_decide_eq_true hphase]
    rfl
  · intro hunstarted
    have hnone : (!record.phase.mayHaveTurn) = true := hunstarted
    rw [Bool.not_eq_true'] at hnone
    exact hmay.resolve_right (hnone ▸ Bool.false_ne_true)

section Step

variable (hallows : view.Allows explicit op)
  (hserve : host.serve explicit op outcome = some (answer, after))
include hallows hserve

theorem turnAtMostOnce_after (hgood : host.TurnAtMostOnce)
    (hfits : host.TurnsKnown view) : after.TurnAtMostOnce := by
  rcases Host.serve_cases hserve with
    rfl | ⟨record, rfl, rfl⟩ | ⟨method, params, rfl, rfl⟩
  · exact hgood
  · rcases writes_mayHaveTurn hfits hallows with hnone | hmay
    · exact Or.inl hnone
    · exact hgood.imp_right fun hone => ⟨hone.1, record, rfl, hmay⟩
  · rw [Host.processed]
    split
    · obtain ⟨hlocked, hready, -⟩ := hallows ‹_›
      obtain ⟨hnone, hmay⟩ := (hfits hlocked).ready hready
      exact Or.inr ⟨by rw [hnone]; rfl, hmay⟩
    · exact hgood

/-- What the holder of the lock knows stays true while others move. -/
theorem turnsKnown_other {other : View} (hother : host.TurnsKnown other)
    (halone : other.locked = true → view.locked ≠ true) :
    after.TurnsKnown other := by
  intro hlocked
  have hfree := halone hlocked
  have hturns := hother hlocked
  rcases Host.serve_cases hserve with
    rfl | ⟨record, rfl, rfl⟩ | ⟨method, params, rfl, rfl⟩
  · exact hturns
  · have hpoll : explicit ≠ true := fun hstart => hfree (hallows.1 hstart)
    have hmay : record.phase.mayHaveTurn = true := by
      rcases hallows.write_cases with ⟨-, hstart⟩ | ⟨base, -, hrecord⟩
      · exact absurd hstart hpoll
      · exact hrecord.mayHaveTurn.resolve_right fun hstart => hpoll hstart.1
    exact ⟨fun hready => ⟨(hturns.ready hready).1, record, rfl, hmay⟩,
      hturns.denied, hturns.unstarted⟩
  · rw [processed_of_ne fun hmethod => hfree (hallows hmethod).1]
    exact hturns

/-- The step lemma: what a call knows fits the host behind its step. -/
theorem turnsKnown_after (hgood : host.TurnAtMostOnce)
    (hfits : host.TurnsKnown view) (hshows : host.Shows crates op answer) :
    after.TurnsKnown (view.after crates op answer) := by
  cases op with
  | rpc method params =>
    apply turnsKnown_afterRpc hfits hallows hshows
    intro hmethod
    rcases Host.serve_cases hserve with
      hsame | ⟨record, hop, -⟩ | ⟨_, _, hop, hprocessed⟩
    · exact hsame
    · cases hop
    · cases hop
      rw [hprocessed, processed_of_ne hmethod]
  | writeRecord record =>
    cases outcome with
    | done =>
      cases hserve
      exact turnsKnown_afterWrite hfits (writes_mayHaveTurn hfits hallows)
    | error message applied =>
      cases hserve
      intro hlocked
      have hturns := hfits hlocked
      cases applied <;> exact ⟨by rintro ⟨⟩, hturns.denied, by rintro ⟨⟩⟩
    | _ => cases hserve
  | readRecord id =>
    cases outcome with
    | done =>
      obtain ⟨record, hrecord, hanswer⟩ := map_eq_some_iff.mp hserve
      cases hanswer
      refine fun hlocked => ⟨by rintro ⟨⟩, (hfits hlocked).denied, ?_⟩
      intro hunstarted
      rcases hgood with hnone | ⟨-, other, hother, hmay⟩
      · exact hnone
      · rw [hrecord] at hother
        cases hother
        rw [View.after, Knowledge.unstarted, hmay] at hunstarted
        cases hunstarted
    | _ => cases hserve <;> exact hfits
  | recordExists id =>
    cases outcome with
    | done =>
      cases hserve
      cases hrecord : host.record with
      | some record => exact hfits
      | none =>
        refine fun hlocked =>
          ⟨by rintro ⟨⟩, (hfits hlocked).denied, fun _ => ?_⟩
        rcases hgood with hnone | ⟨-, other, hother, -⟩
        · exact hnone
        · rw [hrecord] at hother
          cases hother
    | _ => cases hserve <;> exact hfits
  | acquireLock =>
    cases outcome with
    | done =>
      cases hserve
      exact fun _ => ⟨by rintro ⟨⟩, by rintro ⟨⟩, by rintro ⟨⟩⟩
    | _ => cases hserve <;> exact hfits
  | releaseLock => rintro ⟨⟩
  | _ => cases outcome <;> cases hserve <;> exact hfits

end Step

end Overlap

theorem HandoffSystem.Sound.overlaps {crates : HandoffCrates}
    {pathsRoot id : String} {system after : HandoffSystem}
    {action : HandoffAction}
    (hsound : system.Sound crates Host.TurnAtMostOnce Host.TurnsKnown)
    (hshows : system.DaemonShows crates action)
    (hstep : system.step crates pathsRoot id action = some after) :
    after.Sound crates Host.TurnAtMostOnce Host.TurnsKnown := by
  refine hsound.step (by rintro ⟨⟩) ?_ hstep
  rintro i outcome explicit op next view answer host rfl hcall hserve
  have hattended := hsound.calls i _ hcall
  have hallows : view.Allows explicit op := hattended.walks.1
  have hanswer := hshows explicit op next view answer host hcall hserve
  refine ⟨turnAtMostOnce_after hallows hserve hsound.good hattended.fits,
    turnsKnown_after hallows hserve hsound.good hattended.fits hanswer, ?_⟩
  intro j other hne hother
  have hbefore := hsound.calls j other hother
  apply turnsKnown_other hallows hserve hbefore.fits
  intro hheld hlocked
  have hlock := hbefore.locked.mp hheld
  rw [hattended.locked.mp hlocked] at hlock
  exact hne (some.inj hlock).symm

/-- Starts and polls may overlap at any of their steps: as long as the daemon
shows the turns that it has accepted, it accepts one of a handoff. -/
theorem overlapping_calls_run_one_turn (crates : HandoffCrates)
    (pathsRoot id : String) (actions : List HandoffAction)
    (finish : HandoffSystem)
    (hrun : GuardedRun (HandoffSystem.step crates pathsRoot id)
      (HandoffSystem.DaemonShows crates) {} actions finish) :
    finish.host.accepted.length ≤ 1 := by
  have hsound : finish.Sound crates Host.TurnAtMostOnce Host.TurnsKnown :=
    hrun.invariant (.new crates (Or.inl rfl))
      (fun _ _ _ hsound hshows hstep => hsound.overlaps hshows hstep)
  rcases hsound.good with hnone | ⟨hone, -⟩
  · rw [hnone]
    exact Nat.zero_le 1
  · exact Nat.le_of_eq hone

end Vellum.Agent
