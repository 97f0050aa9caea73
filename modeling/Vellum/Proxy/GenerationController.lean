/-
Generations of the proxy (`vellum-proxy-runtime/src/lifecycle.rs`).  A bump
takes its number from an atomic counter and only then locks the slot that holds
the live generation, so bumps that overlap may come to the slot in another
order than to the counter.
-/
import Vellum.Library.KeyedTable
import Vellum.Library.StepRun

namespace Vellum.Proxy

open List Option

/-- A generation; its clones share one cancel flag, which `serial` names. -/
structure ProxyGeneration where
  serial : Nat
  id : UInt64
deriving DecidableEq

/-- The controller with the bumps between their two steps, the flags that are
set and the generations that bumps have returned. -/
structure GenerationController where
  current : UInt64
  slot : ProxyGeneration
  made : Nat
  cancelled : List Nat
  bumps : KeyedTable ProxyGeneration.serial
  returned : List ProxyGeneration

namespace GenerationController

def initial : ProxyGeneration := ⟨0, 0⟩

def new : GenerationController where
  current := 0
  slot := initial
  made := 1
  cancelled := []
  bumps := .empty
  returned := []

variable (state : GenerationController)

def currentId : UInt64 := state.current

def isCancelled (generation : ProxyGeneration) : Bool :=
  generation.serial ∈ state.cancelled

def isCurrent (id : UInt64) : Bool :=
  state.currentId = id

inductive Action where
  | mint
  | publish (serial : Nat)

/-- `fetch_add`, and the new generation. -/
def mintStep : GenerationController :=
  let nextId := state.current + 1
  { state with
    current := nextId
    made := state.made + 1
    bumps := state.bumps.put ⟨state.made, nextId⟩ }

/-- What a bump does under the lock. -/
def publishStep (next : ProxyGeneration) : GenerationController :=
  { state with
    slot := next
    cancelled := state.slot.serial :: state.cancelled
    bumps := state.bumps.erase next.serial
    returned := state.returned ++ [next] }

def step : Action → Option GenerationController
  | .mint => some state.mintStep
  | .publish serial => (state.bumps.find? serial).map state.publishStep

/-- Nothing is in progress. -/
def Quiet : Prop := state.bumps.rows = []

/-- The generation in the slot is the current one; of all that were handed out
it alone is live. -/
structure Settled (state : GenerationController) : Prop where
  newest : state.slot.id = state.currentId
  live : state.isCancelled state.slot = false
  others : ∀ generation ∈ initial :: state.returned,
    generation ≠ state.slot → state.isCancelled generation = true

/-- The last of overlapping bumps to come to the slot still has the current
id. -/
def LastIsCurrent : Action → Prop
  | .mint => True
  | .publish serial => ∀ next, state.bumps.find? serial = some next →
      (state.publishStep next).Quiet → state.isCurrent next.id = true

/-- Flags are set only on what has been in the slot and is there no more. -/
structure Handed (state : GenerationController) : Prop where
  fresh : ∀ next ∈ state.bumps.rows, next.serial < state.made ∧
    next.serial ∉ state.slot.serial :: state.cancelled
  made : ∀ serial ∈ state.slot.serial :: state.cancelled, serial < state.made
  live : state.slot.serial ∉ state.cancelled
  published : ∀ generation ∈ initial :: state.returned,
    generation = state.slot ∨ generation.serial ∈ state.cancelled

theorem handed_new : new.Handed where
  fresh := by rintro _ ⟨⟩
  made := by decide
  live := not_mem_nil
  published := by
    intro generation hmem
    rw [mem_singleton.mp hmem]
    exact Or.inl rfl

variable {state : GenerationController}

theorem handed_mint (hstate : state.Handed) :
    state.mintStep.Handed where
  fresh := by
    intro next hnext
    rcases (KeyedTable.mem_put_iff _ _ _).mp hnext with rfl | ⟨hold, _⟩
    · refine ⟨Nat.lt_succ_self _, ?_⟩
      intro hmem
      exact absurd (hstate.made _ hmem) (Nat.lt_irrefl _)
    · obtain ⟨hlt, hnot⟩ := hstate.fresh next hold
      exact ⟨Nat.lt_succ_of_lt hlt, hnot⟩
  made := fun serial hmem => Nat.lt_succ_of_lt (hstate.made serial hmem)
  live := hstate.live
  published := hstate.published

theorem handed_publish (hstate : state.Handed) {serial : Nat}
    {next : ProxyGeneration} (hnext : state.bumps.find? serial = some next) :
    (state.publishStep next).Handed := by
  obtain ⟨hmem, rfl⟩ := (state.bumps.find?_eq_some_iff serial next).mp hnext
  obtain ⟨hlt, hnot⟩ := hstate.fresh next hmem
  constructor
  · intro other hother
    obtain ⟨hold, hne⟩ := (state.bumps.mem_erase_iff _ _).mp hother
    obtain ⟨hless, hnew⟩ := hstate.fresh other hold
    refine ⟨hless, ?_⟩
    intro hlisted
    rcases mem_cons.mp hlisted with hsame | hlisted
    · exact hne hsame
    · exact hnew hlisted
  · intro serial hserial
    rcases mem_cons.mp hserial with rfl | hserial
    · exact hlt
    · exact hstate.made serial hserial
  · exact hnot
  · intro generation hgeneration
    rw [publishStep, ← cons_append, mem_append,
      mem_singleton] at hgeneration
    rcases hgeneration with hold | rfl
    · right
      rcases hstate.published generation hold with rfl | hcancelled
      · exact mem_cons_self
      · exact mem_cons_of_mem _ hcancelled
    · exact Or.inl rfl

theorem handed_step {next : GenerationController} {action : Action}
    (hstate : state.Handed) (hstep : state.step action = some next) :
    next.Handed := by
  cases action with
  | mint =>
    obtain rfl := some.inj hstep
    exact handed_mint hstate
  | publish serial =>
    obtain ⟨generation, hfind, rfl⟩ := map_eq_some_iff.mp hstep
    exact handed_publish hstate hfind

theorem Handed.settled_iff (hstate : state.Handed) :
    state.Settled ↔ state.slot.id = state.currentId := by
  constructor
  · exact Settled.newest
  · intro hnewest
    refine ⟨hnewest, decide_eq_false hstate.live, ?_⟩
    intro generation hgeneration hne
    rcases hstate.published generation hgeneration with hslot | hcancelled
    · exact absurd hslot hne
    · exact decide_eq_true hcancelled

/-- A step after which nothing is in progress settles the controller just when
it meets the condition. -/
theorem settled_step_iff {ok : GenerationController → Action → Prop}
    {actions : List Action} {next : GenerationController} {action : Action}
    (run : GuardedRun step ok new actions state)
    (hstep : state.step action = some next) (hquiet : next.Quiet) :
    next.Settled ↔ state.LastIsCurrent action := by
  have hstate : state.Handed := run.invariant handed_new
    fun _ _ _ hhanded _ hnext => handed_step hhanded hnext
  rw [(handed_step hstate hstep).settled_iff]
  cases action with
  | mint =>
    obtain rfl := some.inj hstep
    have hmem : (⟨state.made, state.current + 1⟩ : ProxyGeneration) ∈
        state.mintStep.bumps.rows :=
      (KeyedTable.mem_put_iff _ _ _).mpr (Or.inl rfl)
    rw [hquiet] at hmem
    cases hmem
  | publish serial =>
    obtain ⟨generation, hfind, rfl⟩ := map_eq_some_iff.mp hstep
    constructor
    · intro hnewest other hother _
      rw [hfind] at hother
      obtain rfl := some.inj hother
      exact decide_eq_true hnewest.symm
    · intro hlast
      exact (of_decide_eq_true (hlast generation hfind hquiet)).symm

/-- If of overlapping bumps the one with the current id is always the last at
the slot, then whenever all have finished the slot holds the current
generation, and that alone is live. -/
theorem bumps_settle {actions : List Action} {finish : GenerationController}
    (run : GuardedRun step LastIsCurrent new actions finish)
    (hquiet : finish.Quiet) : finish.Settled := by
  cases run with
  | nil => exact handed_new.settled_iff.mpr rfl
  | snoc run hok hstep => exact (settled_step_iff run hstep hquiet).mpr hok

/-- Whether the step meets the condition, decided. -/
def lastIsCurrentCheck (state : GenerationController) : Action → Bool
  | .mint => true
  | .publish serial =>
    (state.bumps.find? serial).all fun next =>
      !(state.publishStep next).bumps.rows.isEmpty || state.isCurrent next.id

theorem lastIsCurrent_of_check (state : GenerationController)
    (action : Action) (hcheck : state.lastIsCurrentCheck action = true) :
    state.LastIsCurrent action := by
  cases action with
  | mint => trivial
  | publish serial =>
    intro next hfind hquiet
    simpa [lastIsCurrentCheck, hfind, List.isEmpty_iff.mpr hquiet] using hcheck

namespace TwoBumps

/-- The second bump to take a number is the last at the slot. -/
theorem ordered_bumps_settle :
    ∃ finish, GuardedRun step LastIsCurrent new
        [.mint, .mint, .publish 1, .publish 2] finish ∧
      finish.Settled ∧ finish.slot.id = 2 := by
  have hlast : (runGuarded step lastIsCurrentCheck new
      [.mint, .mint, .publish 1, .publish 2]).map (fun state =>
        (state.bumps.rows, state.slot.id)) = some ([], 2) := by
    decide
  obtain ⟨finish, hrun, hfinish⟩ := map_eq_some_iff.mp hlast
  have run := guardedRun_of_runGuarded lastIsCurrent_of_check hrun
  obtain ⟨hquiet, hid⟩ := Prod.mk.inj hfinish
  exact ⟨finish, run, bumps_settle run hquiet, hid⟩

/-- The first to take a number is the last at the slot: generation one is live
under the current id two, and generation two, the newest, is cancelled. -/
theorem late_bump_stays_live :
    ∃ finish, runActions step new [.mint, .mint, .publish 2, .publish 1] =
        some finish ∧
      finish.Quiet ∧ finish.slot.id = 1 ∧ finish.currentId = 2 ∧
        finish.isCancelled ⟨2, 2⟩ = true ∧ ¬ finish.Settled := by
  refine ⟨_, rfl, rfl, rfl, rfl, rfl, ?_⟩
  intro hsettled
  exact absurd hsettled.newest (by decide)

end TwoBumps

end GenerationController

end Vellum.Proxy
