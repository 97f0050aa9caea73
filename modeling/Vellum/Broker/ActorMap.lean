/-
The map from threads to their actors.  `ensure_thread_actor` reads the map,
spawns and inserts in three steps under separate locks, and nothing looks again
before the insert.  The supervisor routes an upstream event to whatever actor
the map holds at that moment.
-/
import Vellum.Library.KeyedTable
import Vellum.Library.StepRun

namespace Vellum.Broker

open List Option KeyedTable

/-- A handle: the thread it is for and the actor behind it. -/
structure ActorHandle where
  threadId : String
  actor : Nat
deriving DecidableEq

/-- A call of `ensure_thread_actor` that missed in the map; it holds a handle
once it has spawned. -/
structure PendingCall where
  call : Nat
  threadId : String
  spawned : Option Nat

/-- The map, the calls in progress, the handles calls have returned and the
events the supervisor has routed.  Actors are numbered as they are spawned. -/
structure ActorMap where
  actors : KeyedTable ActorHandle.threadId
  calls : KeyedTable PendingCall.call
  spawnCount : Nat
  returned : List (Nat × ActorHandle)
  routed : List ActorHandle

namespace ActorMap

def start (actors : KeyedTable ActorHandle.threadId) (spawnCount : Nat) :
    ActorMap :=
  ⟨actors, .empty, spawnCount, [], []⟩

/-- The steps of calls and of the supervisor's fan-out. -/
inductive Action where
  | lookup (call : Nat) (threadId : String)
  | spawn (call : Nat)
  | insert (call : Nat)
  | route (threadId : String)

variable (state : ActorMap) (pending : PendingCall)

/-- `actors.read().await.get(&thread_id)`: a hit returns, a miss goes on to
spawn. -/
def lookupStep (call : Nat) (threadId : String) : ActorMap :=
  match state.actors.find? threadId with
  | some existing =>
    { state with returned := state.returned ++ [(call, existing)] }
  | none =>
    { state with calls := state.calls.put ⟨call, threadId, none⟩ }

def spawnStep : ActorMap :=
  { state with
    calls := state.calls.put { pending with spawned := some state.spawnCount }
    spawnCount := state.spawnCount + 1 }

/-- `actors.write().await.insert(thread_id, handle.clone())`. -/
def insertStep (actor : Nat) : ActorMap :=
  { state with
    actors := state.actors.put ⟨pending.threadId, actor⟩
    calls := state.calls.erase pending.call
    returned := state.returned ++ [(pending.call, ⟨pending.threadId, actor⟩)] }

/-- `dispatch`: an event for a thread without an actor is dropped. -/
def routeStep (threadId : String) : ActorMap :=
  match state.actors.find? threadId with
  | some handle => { state with routed := state.routed ++ [handle] }
  | none => state

def step : Action → Option ActorMap
  | .lookup call threadId =>
    if (state.calls.find? call).isSome then none
    else some (state.lookupStep call threadId)
  | .spawn call =>
    match state.calls.find? call with
    | some pending =>
      if pending.spawned.isSome then none
      else some (state.spawnStep pending)
    | none => none
  | .insert call =>
    match state.calls.find? call with
    | some pending => pending.spawned.map (state.insertStep pending)
    | none => none
  | .route threadId => some (state.routeStep threadId)

/-- The schedules without the race: a call reads the map only when no other
call for its thread is between its miss and its insert. -/
def Alone : Action → Prop
  | .lookup _ threadId =>
    ∀ pending ∈ state.calls.rows, pending.threadId ≠ threadId
  | _ => True

/-- One actor for each thread.  A thread with a call in progress has no entry
and no second call; handles and routes agree with the map. -/
structure Unique (state : ActorMap) : Prop where
  absent : ∀ pending ∈ state.calls.rows,
    state.actors.find? pending.threadId = none
  single : ∀ pending ∈ state.calls.rows, ∀ other ∈ state.calls.rows,
    pending.threadId = other.threadId → pending.call = other.call
  registered : ∀ returned ∈ state.returned,
    state.actors.find? returned.2.threadId = some returned.2
  routes : ∀ handle ∈ state.routed,
    state.actors.find? handle.threadId = some handle

theorem unique_start (actors : KeyedTable ActorHandle.threadId)
    (spawnCount : Nat) : (start actors spawnCount).Unique where
  absent _ hpending := absurd hpending not_mem_nil
  single _ hpending := absurd hpending not_mem_nil
  registered _ hreturned := absurd hreturned not_mem_nil
  routes _ hrouted := absurd hrouted not_mem_nil

theorem unique_lookup {state : ActorMap} (hunique : state.Unique)
    {call : Nat} {threadId : String}
    (halone : ∀ pending ∈ state.calls.rows, pending.threadId ≠ threadId) :
    (state.lookupStep call threadId).Unique := by
  unfold lookupStep
  split
  · rename_i existing hfind
    refine ⟨hunique.absent, hunique.single, ?_, hunique.routes⟩
    intro returned hreturned
    rcases mem_append.mp hreturned with hold | hnew
    · exact hunique.registered returned hold
    · rw [mem_singleton.mp hnew, key_of_find? hfind]
      exact hfind
  · rename_i hfind
    refine ⟨?_, ?_, hunique.registered, hunique.routes⟩
    · intro pending hpending
      rcases (mem_put_iff _ _ _).mp hpending with rfl | ⟨hold, -⟩
      · exact hfind
      · exact hunique.absent pending hold
    · intro pending hpending other hother hsame
      rcases (mem_put_iff _ _ _).mp hpending with rfl | ⟨hold, -⟩ <;>
        rcases (mem_put_iff _ _ _).mp hother with rfl | ⟨hold', -⟩
      · rfl
      · exact absurd hsame.symm (halone other hold')
      · exact absurd hsame (halone pending hold)
      · exact hunique.single pending hold other hold' hsame

theorem unique_spawn {state : ActorMap} (hunique : state.Unique)
    {pending : PendingCall} (hpending : pending ∈ state.calls.rows) :
    (state.spawnStep pending).Unique := by
  have hcalls : ∀ row ∈ (state.spawnStep pending).calls.rows,
      ∃ old ∈ state.calls.rows, row.threadId = old.threadId ∧
        row.call = old.call := by
    intro row hrow
    rcases (mem_put_iff _ _ _).mp hrow with rfl | ⟨hold, -⟩
    · exact ⟨pending, hpending, rfl, rfl⟩
    · exact ⟨row, hold, rfl, rfl⟩
  refine ⟨?_, ?_, hunique.registered, hunique.routes⟩
  · intro row hrow
    obtain ⟨old, hold, hthread, -⟩ := hcalls row hrow
    rw [hthread]
    exact hunique.absent old hold
  · intro row hrow other hother hsame
    obtain ⟨old, hold, hthread, hcall⟩ := hcalls row hrow
    obtain ⟨old', hold', hthread', hcall'⟩ := hcalls other hother
    rw [hcall, hcall']
    exact hunique.single old hold old' hold'
      (hthread.symm.trans (hsame.trans hthread'))

/-- The insert of the only call for the thread fills an empty entry, so no
earlier handle or route is left behind. -/
theorem unique_insert {state : ActorMap} (hunique : state.Unique)
    {pending : PendingCall} (hpending : pending ∈ state.calls.rows)
    (actor : Nat) : (state.insertStep pending actor).Unique := by
  have habsent := hunique.absent pending hpending
  have hother : ∀ threadId, threadId ≠ pending.threadId →
      (state.actors.put ⟨pending.threadId, actor⟩).find? threadId =
        state.actors.find? threadId :=
    fun threadId hne => find?_put_of_ne _ _ hne
  have hkept : ∀ handle : ActorHandle,
      state.actors.find? handle.threadId = some handle →
      (state.actors.put ⟨pending.threadId, actor⟩).find? handle.threadId =
        some handle := by
    intro handle hfind
    rw [hother, hfind]
    intro hsame
    rw [hsame, habsent] at hfind
    cases hfind
  refine ⟨?_, ?_, ?_, ?_⟩
  · intro row hrow
    obtain ⟨hold, hne⟩ := (mem_erase_iff _ _ _).mp hrow
    refine (hother row.threadId ?_).trans (hunique.absent row hold)
    exact fun hsame => hne (hunique.single row hold pending hpending hsame)
  · intro row hrow other hotherRow hsame
    exact hunique.single row ((mem_erase_iff _ _ _).mp hrow).1 other
      ((mem_erase_iff _ _ _).mp hotherRow).1 hsame
  · intro returned hreturned
    rcases mem_append.mp hreturned with hold | hnew
    · exact hkept returned.2 (hunique.registered returned hold)
    · rw [mem_singleton.mp hnew]
      exact find?_put_self state.actors ⟨pending.threadId, actor⟩
  · intro handle hhandle
    exact hkept handle (hunique.routes handle hhandle)

theorem unique_step {state next : ActorMap} {action : Action}
    (hunique : state.Unique) (hok : state.Alone action)
    (hstep : state.step action = some next) : next.Unique := by
  cases action with
  | lookup call threadId =>
    simp only [step] at hstep
    split at hstep
    · cases hstep
    · rw [some.injEq] at hstep
      rw [← hstep]
      exact unique_lookup hunique hok
  | spawn call =>
    simp only [step] at hstep
    split at hstep
    · rename_i pending hfind
      split at hstep
      · cases hstep
      · rw [some.injEq] at hstep
        rw [← hstep]
        exact unique_spawn hunique
          ((find?_eq_some_iff _ _ _).mp hfind).1
    · cases hstep
  | insert call =>
    simp only [step] at hstep
    split at hstep
    · rename_i pending hfind
      obtain ⟨actor, -, rfl⟩ := map_eq_some_iff.mp hstep
      exact unique_insert hunique
        ((find?_eq_some_iff _ _ _).mp hfind).1 actor
    · cases hstep
  | route threadId =>
    rw [step, some.injEq] at hstep
    rw [← hstep, routeStep]
    split
    · rename_i handle hfind
      refine ⟨hunique.absent, hunique.single, hunique.registered, ?_⟩
      intro routed hrouted
      rcases mem_append.mp hrouted with hold | hnew
      · exact hunique.routes routed hold
      · rw [mem_singleton.mp hnew, key_of_find? hfind]
        exact hfind
    · exact hunique

theorem unique_run {state next : ActorMap} {actions : List Action}
    (run : GuardedRun step Alone state actions next)
    (hunique : state.Unique) : next.Unique := by
  induction run with
  | nil => exact hunique
  | snoc run hok hstep ih => exact unique_step ih hok hstep

/-- Without the race every call for a thread returns the registered actor, so
all of them return the same one, and every event routed for the thread, at
whatever time, went to it. -/
theorem ensureThreadActor_agrees {actors : KeyedTable ActorHandle.threadId}
    {spawnCount : Nat} {actions : List Action} {finish : ActorMap}
    (run : GuardedRun step Alone (start actors spawnCount) actions finish) :
    ∀ returned ∈ finish.returned,
      finish.actors.find? returned.2.threadId = some returned.2 ∧
      (∀ other ∈ finish.returned,
        other.2.threadId = returned.2.threadId → other.2 = returned.2) ∧
      ∀ handle ∈ finish.routed,
        handle.threadId = returned.2.threadId → handle = returned.2 := by
  have hunique := unique_run run (unique_start actors spawnCount)
  intro returned hreturned
  have hentry := hunique.registered returned hreturned
  refine ⟨hentry, ?_, ?_⟩
  · intro other hother hsame
    have hotherEntry := hunique.registered other hother
    rw [hsame, hentry, some.injEq] at hotherEntry
    exact hotherEntry.symm
  · intro handle hhandle hsame
    have hroute := hunique.routes handle hhandle
    rw [hsame, hentry, some.injEq] at hroute
    exact hroute.symm

/-- Whether the step is free of the race, decided. -/
def aloneCheck : Action → Bool
  | .lookup _ threadId =>
    state.calls.rows.all fun pending => pending.threadId ≠ threadId
  | _ => true

theorem alone_of_check (state : ActorMap) (action : Action)
    (hcheck : state.aloneCheck action = true) : state.Alone action := by
  cases action with
  | lookup call threadId =>
    intro pending hpending
    have hne := List.all_eq_true.mp hcheck pending hpending
    exact of_decide_eq_true hne
  | spawn | insert | route => trivial

namespace TwoCallers

/-- Two connections ask for the same thread; both miss before either
inserts. -/
def raceActions : List Action :=
  [.lookup 1 "thread-1", .lookup 2 "thread-1", .spawn 1, .spawn 2, .insert 1,
    .insert 2, .route "thread-1"]

/-- The two calls return different actors; the map keeps the second, and the
event never reaches the client of the first. -/
theorem race_returns_two_actors :
    (runActions step (start .empty 0) raceActions).map (fun state =>
      (state.returned, state.actors.rows, state.routed)) =
    some ([(1, ⟨"thread-1", 0⟩), (2, ⟨"thread-1", 1⟩)],
      [⟨"thread-1", 1⟩], [⟨"thread-1", 1⟩]) := by
  decide

/-- The second call looks after the first has inserted. -/
def orderedActions : List Action :=
  [.lookup 1 "thread-1", .spawn 1, .insert 1, .lookup 2 "thread-1",
    .route "thread-1"]

theorem ordered_calls_agree :
    ∃ finish, GuardedRun step Alone (start .empty 0) orderedActions finish ∧
      finish.returned.length = 2 ∧
      ∀ returned ∈ finish.returned,
        finish.actors.find? returned.2.threadId = some returned.2 ∧
        (∀ other ∈ finish.returned,
          other.2.threadId = returned.2.threadId → other.2 = returned.2) ∧
        ∀ handle ∈ finish.routed,
          handle.threadId = returned.2.threadId → handle = returned.2 := by
  have hlength : (runGuarded step aloneCheck (start .empty 0)
      orderedActions).map (fun state => state.returned.length) = some 2 := by
    decide
  obtain ⟨finish, hrun, htwo⟩ := map_eq_some_iff.mp hlength
  have run := guardedRun_of_runGuarded alone_of_check hrun
  exact ⟨finish, run, htwo, ensureThreadActor_agrees run⟩

end TwoCallers

end ActorMap

end Vellum.Broker
