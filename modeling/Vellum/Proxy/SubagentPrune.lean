/-
What pruning does to the fan-out of a cancellation.  Threads without an active
execution are evicted one by one, oldest first; a thread that is evicted cuts
off the threads below it, whether or not they are active.
-/
import Vellum.Proxy.SubagentHierarchy

namespace Vellum.Proxy

open List Option Forest KeyedTable

namespace SubagentGraphRegistry

variable {registry : SubagentGraphRegistry} {node : SubagentThreadNode}

theorem mem_activeExecutions {thread : CodexThreadKey} {id : String} :
    id ∈ registry.activeExecutionsForThread thread ↔
      id ∈ registry.threadExecutions.members thread ∧
        registry.executionTerminal.find? id = none := by
  rw [activeExecutionsForThread, mem_filter, isNone_iff_eq_none]

/-! ### Eviction -/

/-- The parents that are left when some threads are gone. -/
def keptParent (registry : SubagentGraphRegistry) (gone : List CodexThreadKey)
    (key : CodexThreadKey) : Option CodexThreadKey :=
  if key ∈ gone then none
  else (registry.parentOf key).filter fun parent => parent ∉ gone

theorem keptParent_eq_some_iff {gone : List CodexThreadKey}
    {key parent : CodexThreadKey} :
    registry.keptParent gone key = some parent ↔
      key ∉ gone ∧ registry.parentOf key = some parent ∧ parent ∉ gone := by
  rw [keptParent]
  by_cases hkey : key ∈ gone
  · simp [hkey]
  · rw [if_neg hkey, filter_eq_some_iff]
    simp [hkey]

/-- What the eviction of some threads leaves. -/
structure Evicted (before after : SubagentGraphRegistry)
    (gone : List CodexThreadKey) : Prop where
  parents : ∀ key, after.parentOf key = before.keptParent gone key
  members : ∀ key, after.threadExecutions.members key =
    if key ∈ gone then [] else before.threadExecutions.members key
  terminal : ∀ id, before.executionTerminal.find? id = none →
    after.executionTerminal.find? id = none

theorem Evicted.refl (registry : SubagentGraphRegistry) :
    Evicted registry registry [] where
  parents := by
    intro key
    apply Option.ext
    intro parent
    rw [keptParent_eq_some_iff]
    simp
  members := by
    intro key
    rw [if_neg not_mem_nil]
  terminal := fun _ hnone => hnone

/-- One thread after the other. -/
theorem Evicted.cons {before after : SubagentGraphRegistry}
    (hbefore : before.Hierarchy) {key : CodexThreadKey}
    (hnode : before.nodes.find? key = some node) {gone : List CodexThreadKey}
    (hrest : Evicted (before.removeThread key).1 after gone) :
    Evicted before after (key :: gone) where
  parents := by
    intro other
    apply Option.ext
    intro parent
    rw [hrest.parents, keptParent_eq_some_iff, keptParent_eq_some_iff,
      parentOf_removeThread hbefore hnode, mem_cons, mem_cons]
    by_cases hother : other = key
    · simp [hother]
    · by_cases hparent : before.parentOf other = some key
      · rw [if_pos (Or.inr hparent), hparent]
        constructor
        · rintro ⟨_, hnone, _⟩
          cases hnone
        · rintro ⟨_, hsome, hnot⟩
          exact absurd (Or.inl (some.inj hsome).symm) hnot
      · rw [if_neg (by simp [hother, hparent])]
        constructor
        · rintro ⟨hkept, hsome, hgone⟩
          refine ⟨by simp [hother, hkept], hsome, ?_⟩
          rintro (rfl | hmem)
          · exact hparent hsome
          · exact hgone hmem
        · rintro ⟨hkept, hsome, hgone⟩
          exact ⟨fun hmem => hkept (Or.inr hmem), hsome,
            fun hmem => hgone (Or.inr hmem)⟩
  members := by
    intro other
    rw [hrest.members]
    simp only [SubagentGraphRegistry.removeThread, hnode, SetTable.members_erase,
      mem_cons]
    by_cases hother : other = key
    · simp [hother]
    · simp [hother]
  terminal := by
    intro id hnone
    apply hrest.terminal
    simp only [SubagentGraphRegistry.removeThread, hnode,
      find?_retain, hnone]
    rfl

theorem find?_nodes_removeThread {key other : CodexThreadKey}
    (hnode : registry.nodes.find? key = some node) (hne : other ≠ key)
    (hother : (registry.nodes.find? other).isSome = true) :
    ((registry.removeThread key).1.nodes.find? other).isSome = true := by
  simp only [removeThread, hnode, find?_modify, isSome_map]
  rw [find?_erase, if_neg hne]
  exact hother

theorem length_nodes_removeThread {key : CodexThreadKey}
    (hnode : registry.nodes.find? key = some node) :
    (registry.removeThread key).1.nodes.rows.length + 1 =
      registry.nodes.rows.length := by
  rw [← length_erase hnode]
  simp only [removeThread, hnode, KeyedTable.modify, length_map]

/-- As many threads go as there are too many. -/
theorem evicted_evict (hregistry : registry.Hierarchy)
    {keys : List CodexThreadKey} (hnodup : keys.Nodup)
    (hknown : ∀ key ∈ keys, (registry.nodes.find? key).isSome = true)
    (maxNodes : Nat) (stats : PruneStats) :
    Evicted registry (evict maxNodes keys (registry, stats)).1
      (keys.take (registry.nodes.rows.length - maxNodes)) := by
  induction keys generalizing registry stats with
  | nil =>
    rw [take_nil]
    exact Evicted.refl registry
  | cons key keys ih =>
    obtain ⟨stats', hcons⟩ := evict_cons
    rw [hcons]
    split
    · rename_i hroom
      rw [Nat.sub_eq_zero_of_le hroom, take_zero]
      exact Evicted.refl registry
    · rename_i hroom
      obtain ⟨hkey, hkeys⟩ := nodup_cons.mp hnodup
      obtain ⟨node, hnode⟩ := isSome_iff_exists.mp
        (hknown key mem_cons_self)
      have hlength := length_nodes_removeThread hnode
      have htake : registry.nodes.rows.length - maxNodes =
          ((registry.removeThread key).1.nodes.rows.length - maxNodes) + 1 := by
        omega
      rw [htake, take_succ_cons]
      apply Evicted.cons hregistry hnode
      apply ih (hregistry.removeThread key) hkeys
      intro other hother
      apply find?_nodes_removeThread hnode
      · rintro rfl
        exact hkey hother
      · exact hknown other (mem_cons_of_mem key hother)

theorem inactiveThreads_perm (registry : SubagentGraphRegistry) :
    registry.inactiveThreads.Perm
      ((registry.nodes.rows.filter fun node =>
        (registry.activeExecutionsForThread node.key).isEmpty).map
          SubagentThreadNode.key) := by
  rw [inactiveThreads]
  refine ((perm_insertionSort _ _).map Prod.fst).trans ?_
  rw [List.map_map]
  exact List.Perm.refl _

theorem mem_inactiveThreads {key : CodexThreadKey}
    (hkey : key ∈ registry.inactiveThreads) :
    (registry.nodes.find? key).isSome = true ∧
      registry.activeExecutionsForThread key = [] := by
  rw [registry.inactiveThreads_perm.mem_iff] at hkey
  obtain ⟨node, hnode, rfl⟩ := List.mem_map.mp hkey
  obtain ⟨hmem, hinactive⟩ := mem_filter.mp hnode
  refine ⟨?_, List.isEmpty_iff.mp hinactive⟩
  rw [(registry.nodes.find?_eq_some_iff node.key node).mpr ⟨hmem, rfl⟩]
  rfl

theorem nodup_inactiveThreads (registry : SubagentGraphRegistry) :
    registry.inactiveThreads.Nodup :=
  registry.inactiveThreads_perm.nodup_iff.mpr
    ((filter_sublist.map _).nodup registry.nodes.keys_nodup)

/-! ### Expiry -/

/-- What the expiry of some executions leaves. -/
structure Expired (before after : SubagentGraphRegistry) (ids : List String) :
    Prop where
  parents : after.parentOf = before.parentOf
  fewer : ∀ thread id, id ∈ after.threadExecutions.members thread →
    id ∈ before.threadExecutions.members thread
  members : ∀ thread id, id ∉ ids →
    id ∈ before.threadExecutions.members thread →
      id ∈ after.threadExecutions.members thread
  terminal : ∀ id, before.executionTerminal.find? id = none →
    after.executionTerminal.find? id = none

theorem expired_expireExecution (state : SubagentGraphRegistry × PruneStats)
    (executionId : String) :
    Expired state.1 (expireExecution state executionId).1 [executionId] := by
  obtain ⟨registry, stats⟩ := state
  have hterminal : ∀ id, registry.executionTerminal.find? id = none →
      (registry.executionTerminal.erase executionId).find? id = none := by
    intro id hnone
    rw [find?_erase, hnone, ite_self]
  cases hfind : registry.executions.find? executionId with
  | none =>
    simp only [expireExecution, hfind]
    exact ⟨rfl, fun _ _ hmem => hmem, fun _ _ _ hmem => hmem, hterminal⟩
  | some binding =>
    simp only [expireExecution, hfind]
    refine ⟨rfl, ?_, ?_, hterminal⟩
    · intro thread id hmem
      exact (SetTable.mem_members_removeValue.mp hmem).1
    · intro thread id hne hmem
      refine SetTable.mem_members_removeValue.mpr ⟨hmem, ?_⟩
      rintro ⟨_, rfl⟩
      exact hne mem_cons_self

theorem Expired.trans {first second third : SubagentGraphRegistry}
    {ids ids' : List String} (hfirst : Expired first second ids)
    (hsecond : Expired second third ids') :
    Expired first third (ids ++ ids') where
  parents := hsecond.parents.trans hfirst.parents
  fewer := fun thread id hmem =>
    hfirst.fewer thread id (hsecond.fewer thread id hmem)
  members := by
    intro thread id hids hmem
    rw [mem_append, not_or] at hids
    exact hsecond.members thread id hids.2 (hfirst.members thread id hids.1 hmem)
  terminal := fun id hnone => hsecond.terminal id (hfirst.terminal id hnone)

theorem expired_foldl (ids : List String)
    (state : SubagentGraphRegistry × PruneStats) :
    Expired state.1 (ids.foldl expireExecution state).1 ids := by
  induction ids generalizing state with
  | nil => exact ⟨rfl, fun _ _ hmem => hmem, fun _ _ _ hmem => hmem,
      fun _ hnone => hnone⟩
  | cons id ids ih =>
    exact (expired_expireExecution state id).trans
      (ih (expireExecution state id))

theorem terminal_of_expired {nowMs ttlMs : Nat} {id : String}
    (hid : id ∈ registry.expiredExecutions nowMs ttlMs) :
    registry.executionTerminal.find? id ≠ none := by
  obtain ⟨row, hrow, rfl⟩ := List.mem_map.mp hid
  have hmem := (mem_filter.mp hrow).1
  rw [(registry.executionTerminal.find?_eq_some_iff row.1 row).mpr ⟨hmem, rfl⟩]
  exact some_ne_none row

theorem expired_expire (registry : SubagentGraphRegistry) (nowMs ttlMs : Nat) :
    Expired registry (registry.expire nowMs ttlMs).1
      (registry.expiredExecutions nowMs ttlMs) := by
  have hfold := expired_foldl (registry.expiredExecutions nowMs ttlMs)
    (registry, {})
  exact ⟨hfold.parents, hfold.fewer, hfold.members, hfold.terminal⟩

/-! ### The fan-out -/

/-- The threads over capacity that a prune evicts: of those without an active
execution the ones seen longest ago. -/
def overCapacity (registry : SubagentGraphRegistry)
    (nowMs ttlMs maxNodes : Nat) : List CodexThreadKey :=
  (registry.expire nowMs ttlMs).1.inactiveThreads.take
    (registry.nodes.rows.length - maxNodes)

theorem evicted_prune (hregistry : registry.Hierarchy)
    (nowMs ttlMs maxNodes : Nat) :
    Evicted (registry.expire nowMs ttlMs).1
      (registry.prune nowMs ttlMs maxNodes).1
      (registry.overCapacity nowMs ttlMs maxNodes) := by
  have hexpired := hregistry.expire nowMs ttlMs
  have hnodes := (expire_frame registry nowMs ttlMs).1
  rw [overCapacity, SubagentGraphRegistry.prune, ← hnodes]
  rcases hexpire : registry.expire nowMs ttlMs with ⟨expired, stats⟩
  rw [hexpire] at hexpired
  simp only
  split
  · exact evicted_evict hexpired expired.nodup_inactiveThreads
      (fun key hkey => (mem_inactiveThreads hkey).1) maxNodes stats
  · rename_i hroom
    rw [Nat.sub_eq_zero_of_le (Nat.le_of_not_lt hroom), take_zero]
    exact Evicted.refl expired

section Prune

variable {registry : SubagentGraphRegistry} (hregistry : registry.Hierarchy)
  (nowMs ttlMs maxNodes : Nat)

include hregistry

theorem parentOf_prune :
    (registry.prune nowMs ttlMs maxNodes).1.parentOf =
      registry.keptParent (registry.overCapacity nowMs ttlMs maxNodes) := by
  funext key
  rw [(evicted_prune hregistry nowMs ttlMs maxNodes).parents, keptParent,
    keptParent, (expired_expire registry nowMs ttlMs).parents]

/-- An active execution is not expired, and its thread is not evicted. -/
theorem active_prune {thread : CodexThreadKey} {id : String}
    (hactive : id ∈ registry.activeExecutionsForThread thread) :
    id ∈ (registry.prune nowMs ttlMs maxNodes).1.activeExecutionsForThread
      thread := by
  obtain ⟨hmem, hterminal⟩ := mem_activeExecutions.mp hactive
  have hexpired := expired_expire registry nowMs ttlMs
  have hevicted := evicted_prune hregistry nowMs ttlMs maxNodes
  have hid : id ∉ registry.expiredExecutions nowMs ttlMs :=
    fun hmem => terminal_of_expired hmem hterminal
  have hstill := hexpired.members thread id hid hmem
  have hnone := hexpired.terminal id hterminal
  have hspared : thread ∉ registry.overCapacity nowMs ttlMs maxNodes := by
    intro hgone
    have hinactive := (mem_inactiveThreads (mem_of_mem_take hgone)).2
    have hthread := mem_activeExecutions.mpr ⟨hstill, hnone⟩
    rw [hinactive] at hthread
    cases hthread
  refine mem_activeExecutions.mpr ⟨?_, hevicted.terminal id hnone⟩
  rw [hevicted.members, if_neg hspared]
  exact hstill

theorem members_prune {thread : CodexThreadKey} {id : String}
    (hmem : id ∈ (registry.prune nowMs ttlMs
      maxNodes).1.threadExecutions.members thread) :
    id ∈ registry.threadExecutions.members thread := by
  rw [(evicted_prune hregistry nowMs ttlMs maxNodes).members] at hmem
  split at hmem
  · cases hmem
  · exact (expired_expire registry nowMs ttlMs).fewer thread id hmem

end Prune

theorem Hierarchy.mem_fanOut (hregistry : registry.Hierarchy)
    {root : CodexThreadKey} {limit : Nat} {active : List String}
    (hactive : registry.activeDescendantExecutions root limit = .ok active)
    (id : String) :
    id ∈ active ↔ ∃ thread, Below registry.parentOf thread root ∧
      id ∈ registry.activeExecutionsForThread thread := by
  rw [activeDescendantExecutions] at hactive
  cases hfound : registry.descendantsOf root limit with
  | error error =>
    rw [hfound] at hactive
    cases hactive
  | ok found =>
    rw [hfound] at hactive
    obtain rfl := Except.ok.inj hactive
    obtain ⟨_, hmem⟩ := (hregistry.descends root limit).once found hfound
    rw [mem_flatMap]
    constructor
    · rintro ⟨thread, hthread, hid⟩
      exact ⟨thread, (hmem thread).mp hthread, hid⟩
    · rintro ⟨thread, hthread, hid⟩
      exact ⟨thread, (hmem thread).mpr hthread, hid⟩

/-- A fan-out that is within its limit stays so when threads are taken away. -/
theorem Hierarchy.fanOut_of_fewer {next : SubagentGraphRegistry}
    (hregistry : registry.Hierarchy) (hnext : next.Hierarchy)
    {root : CodexThreadKey} {limit : Nat}
    (hfewer : ∀ thread, Below next.parentOf thread root →
      Below registry.parentOf thread root) {active : List String}
    (hactive : registry.activeDescendantExecutions root limit = .ok active) :
    ∃ after, next.activeDescendantExecutions root limit = .ok after := by
  rw [activeDescendantExecutions, descendantsOf] at hactive
  cases hfound : traverse registry.children.members limit root with
  | error stop =>
    rw [hfound] at hactive
    cases stop with
    | repeated => cases hactive
    | exceeded => cases hactive
  | ok found =>
    obtain ⟨_, hmem, hlength⟩ :=
      (hregistry.traversed root limit).complete found hfound
    obtain ⟨after, hafter⟩ := (hnext.descends root limit).within found
      (fun thread hthread => (hmem thread).mpr (hfewer thread hthread))
      hlength
    exact ⟨_, by rw [activeDescendantExecutions, hafter]; rfl⟩

/-- With a limit of all its threads a registry answers. -/
theorem Hierarchy.fanOut_of_all (hregistry : registry.Hierarchy)
    (root : CodexThreadKey) :
    ∃ active, registry.activeDescendantExecutions root
      registry.nodes.rows.length = .ok active := by
  have hall : ∀ thread, Below registry.parentOf thread root →
      thread ∈ registry.nodes.rows.map SubagentThreadNode.key := by
    intro thread hthread
    cases hfind : registry.nodes.find? thread with
    | none =>
      have hnone : registry.parentOf thread = none := by
        rw [parentOf, hfind]
        rfl
      exact absurd hthread (not_below_of_none hnone)
    | some node =>
      obtain ⟨hmem, rfl⟩ :=
        (registry.nodes.find?_eq_some_iff thread node).mp hfind
      exact List.mem_map_of_mem hmem
  obtain ⟨found, hfound⟩ := (hregistry.descends root _).within _ hall
    (Nat.le_of_eq (length_map _))
  exact ⟨_, by rw [activeDescendantExecutions, hfound]; rfl⟩

/-- No active execution is lost from the fan-out of a thread. -/
def KeepsFanOut (registry : SubagentGraphRegistry)
    (nowMs ttlMs maxNodes : Nat) (root : CodexThreadKey) : Prop :=
  ∀ limit before, registry.activeDescendantExecutions root limit = .ok before →
    ∀ id ∈ before, ∃ after,
      (registry.prune nowMs ttlMs maxNodes).1.activeDescendantExecutions root
        limit = .ok after ∧ id ∈ after

/-- Every active execution below a thread has a thread that is below it over
threads that are not evicted. -/
def Connected (registry : SubagentGraphRegistry)
    (nowMs ttlMs maxNodes : Nat) (root : CodexThreadKey) : Prop :=
  ∀ thread id, Below registry.parentOf thread root →
    id ∈ registry.activeExecutionsForThread thread →
    ∃ other, id ∈ registry.activeExecutionsForThread other ∧
      Below (registry.keptParent
        (registry.overCapacity nowMs ttlMs maxNodes)) other root

theorem fanOut_kept_iff {registry : SubagentGraphRegistry}
    (hreachable : registry.Reachable) (nowMs ttlMs maxNodes : Nat)
    (root : CodexThreadKey) :
    registry.KeepsFanOut nowMs ttlMs maxNodes root ↔
      registry.Connected nowMs ttlMs maxNodes root := by
  have hregistry := hreachable.hierarchy
  have hpruned := hregistry.prune nowMs ttlMs maxNodes
  have hparents := parentOf_prune hregistry nowMs ttlMs maxNodes
  constructor
  · intro hkeeps thread id hthread hid
    obtain ⟨before, hbefore⟩ := hregistry.fanOut_of_all root
    have hmem := (hregistry.mem_fanOut hbefore id).mpr ⟨thread, hthread, hid⟩
    obtain ⟨after, hafter, hid'⟩ := hkeeps _ before hbefore id hmem
    obtain ⟨other, hother, hactive⟩ := (hpruned.mem_fanOut hafter id).mp hid'
    rw [hparents] at hother
    refine ⟨other, mem_activeExecutions.mpr ⟨?_, ?_⟩, hother⟩
    · exact members_prune hregistry nowMs ttlMs maxNodes
        (mem_activeExecutions.mp hactive).1
    · exact (mem_activeExecutions.mp hid).2
  · intro hconnected limit before hbefore id hid
    have hfewer : ∀ thread,
        Below (registry.prune nowMs ttlMs maxNodes).1.parentOf thread root →
          Below registry.parentOf thread root := by
      intro thread hthread
      rw [hparents] at hthread
      exact hthread.mono fun _ _ hedge => (keptParent_eq_some_iff.mp hedge).2.1
    obtain ⟨after, hafter⟩ := hregistry.fanOut_of_fewer hpruned hfewer hbefore
    obtain ⟨thread, hthread, hactive⟩ := (hregistry.mem_fanOut hbefore id).mp hid
    obtain ⟨other, hother, hbelow⟩ := hconnected thread id hthread hactive
    refine ⟨after, hafter, (hpruned.mem_fanOut hafter id).mpr ⟨other, ?_, ?_⟩⟩
    · rw [hparents]
      exact hbelow
    · exact active_prune hregistry nowMs ttlMs maxNodes hother

namespace Family

/-- The middle thread of three has finished. -/
def finished : SubagentGraphRegistry :=
  (three.markExecutionTerminal "exec_child" 4).1

theorem reachable_finished : finished.Reachable :=
  reachable_three.call (.markExecutionTerminal "exec_child" 4)

theorem thread_of_grandchild {thread : CodexThreadKey}
    (hmem : "exec_grandchild" ∈ finished.threadExecutions.members thread) :
    thread = key "grandchild" := by
  have hinsert : finished.threadExecutions =
      ((SetTable.insert KeyedTable.empty (key "root") "exec_root").insert
        (key "child") "exec_child").insert (key "grandchild")
          "exec_grandchild" := rfl
  rw [hinsert, SetTable.mem_members_insert, SetTable.mem_members_insert,
    SetTable.mem_members_insert] at hmem
  rcases hmem with ⟨hthread, _⟩ | ⟨_, hid⟩ | ⟨_, hid⟩ | hmem
  · exact hthread
  · exact absurd hid (by decide)
  · exact absurd hid (by decide)
  · cases hmem

theorem below_root : Below finished.parentOf (key "grandchild") (key "root") :=
  .head (show finished.parentOf (key "grandchild") = some (key "child")
    by decide) (.single (by decide))

/-- A prune to two threads evicts the finished one, and a cancellation of the
root no longer comes to the active one below it. -/
theorem grandchild_lost :
    ((finished.prune 5 1000 2).1.nodes.find? (key "root")).isSome = true ∧
      ¬ finished.KeepsFanOut 5 1000 2 (key "root") := by
  refine ⟨by decide, ?_⟩
  intro hkeeps
  have hregistry := reachable_finished.hierarchy
  obtain ⟨before, hbefore⟩ := hregistry.fanOut_of_all (key "root")
  have hmem : "exec_grandchild" ∈ before :=
    (hregistry.mem_fanOut hbefore _).mpr ⟨key "grandchild", below_root,
      by decide⟩
  obtain ⟨after, hafter, hid⟩ := hkeeps _ before hbefore _ hmem
  obtain ⟨thread, hbelow, hactive⟩ :=
    ((hregistry.prune 5 1000 2).mem_fanOut hafter _).mp hid
  obtain rfl := thread_of_grandchild
    (members_prune hregistry 5 1000 2 (mem_activeExecutions.mp hactive).1)
  rw [parentOf_prune hregistry] at hbelow
  exact not_below_of_none (by decide) hbelow

/-- With room for three threads none is evicted. -/
theorem fanOut_kept_three : finished.KeepsFanOut 5 1000 3 (key "root") := by
  apply (fanOut_kept_iff reachable_finished 5 1000 3 (key "root")).mpr
  intro thread id hthread hid
  have hnone : finished.overCapacity 5 1000 3 = [] := by decide
  refine ⟨thread, hid, hthread.mono ?_⟩
  intro child parent hedge
  rw [hnone, keptParent_eq_some_iff]
  exact ⟨not_mem_nil, hedge, not_mem_nil⟩

end Family

end SubagentGraphRegistry

end Vellum.Proxy
