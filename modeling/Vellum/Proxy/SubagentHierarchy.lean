/-
The two places of an edge agree in every registry that calls lead to, and the
parents form a forest.  The walk up that precedes an insertion is what keeps
cycles out; a thread that is removed leaves its children without a parent.
-/
import Vellum.Proxy.SubagentGraph

namespace Vellum.Proxy

open Option Forest KeyedTable

namespace SubagentGraphRegistry

def parentOf (registry : SubagentGraphRegistry) (key : CodexThreadKey) :
    Option CodexThreadKey :=
  (registry.nodes.find? key).bind SubagentThreadNode.parent

/-- The parents form a forest, and the index of children is its inverse. -/
structure Hierarchy (registry : SubagentGraphRegistry) : Prop where
  acyclic : Acyclic registry.parentOf
  indexed : ∀ child parent, child ∈ registry.children.members parent ↔
    registry.parentOf child = some parent

theorem hierarchy_new : Hierarchy {} where
  acyclic := acyclic_none
  indexed := by
    intro child parent
    constructor
    · intro hmem
      cases hmem
    · intro hparent
      cases hparent

variable {registry : SubagentGraphRegistry} {child : CodexThreadKey}
  {error : SubagentGraphError} {removed : SubagentThreadNode}

theorem Hierarchy.congr {next : SubagentGraphRegistry}
    (hregistry : registry.Hierarchy)
    (hparents : next.parentOf = registry.parentOf)
    (hchildren : ∀ child parent, child ∈ next.children.members parent ↔
      child ∈ registry.children.members parent) : next.Hierarchy where
  acyclic := by
    rw [hparents]
    exact hregistry.acyclic
  indexed := by
    intro child parent
    rw [hchildren, hparents]
    exact hregistry.indexed child parent

theorem Reordered.hierarchy {reordered : SubagentGraphRegistry}
    (horder : registry.Reordered reordered) (hregistry : registry.Hierarchy) :
    reordered.Hierarchy := by
  apply hregistry.congr
  · funext key
    rw [parentOf, parentOf, horder.nodes.find?_eq]
  · intro child parent
    exact (horder.children parent).symm.mem_iff

theorem climbsTo_of_parent {current next : CodexThreadKey}
    {seen : List CodexThreadKey} (hfresh : current ∉ seen)
    (hne : current ≠ child) (hparent : registry.parentOf current = some next) :
    climbsTo registry.nodes child seen current =
      climbsTo registry.nodes child (current :: seen) next := by
  obtain ⟨node, hfind, hnode⟩ := bind_eq_some_iff.mp hparent
  rw [climbsTo, dif_neg hfresh, if_neg hne]
  split
  · rename_i hnone
    rw [hfind] at hnone
    cases hnone
  · rename_i other hother
    rw [hfind] at hother
    obtain rfl := some.inj hother
    rw [hnode]

theorem climbsTo_of_root {current : CodexThreadKey} {seen : List CodexThreadKey}
    (hfresh : current ∉ seen) (hne : current ≠ child)
    (hparent : registry.parentOf current = none) :
    climbsTo registry.nodes child seen current = false := by
  rw [climbsTo, dif_neg hfresh, if_neg hne]
  split
  · rfl
  · rename_i node hnode
    rw [parentOf, hnode] at hparent
    change node.parent = none at hparent
    rw [hparent]

/-- A walk up that does not report a cycle has not come by the child. -/
theorem not_atOrBelow_of_climbsTo (registry : SubagentGraphRegistry)
    (seen : List CodexThreadKey) (current : CodexThreadKey)
    (hclimb : climbsTo registry.nodes child seen current = false) :
    ¬ AtOrBelow registry.parentOf current child := by
  induction seen, current using climbsTo.induct registry.nodes child with
  | case1 seen current hseen =>
    rw [climbsTo, dif_pos hseen] at hclimb
    cases hclimb
  | case2 seen hseen =>
    rw [climbsTo, dif_neg hseen, if_pos rfl] at hclimb
    cases hclimb
  | case3 seen current hseen hne hnone =>
    have hparent : registry.parentOf current = none := by
      rw [parentOf, hnone]
      rfl
    rintro (heq | hbelow)
    · exact hne heq
    · exact not_below_of_none hparent hbelow
  | case4 seen current hseen hne node hfind hnode =>
    have hparent : registry.parentOf current = none := by
      rw [parentOf, hfind]
      exact hnode
    rintro (heq | hbelow)
    · exact hne heq
    · exact not_below_of_none hparent hbelow
  | case5 seen current hseen hne node hfind next hnode hless ih =>
    have hparent : registry.parentOf current = some next := by
      rw [parentOf, hfind]
      exact hnode
    rw [climbsTo_of_parent hseen hne hparent] at hclimb
    rintro (heq | hbelow)
    · exact hne heq
    · exact ih hclimb (hbelow.of_parent hparent)

theorem or_some_of_not_hasOtherParent {parent : CodexThreadKey}
    (hother : registry.hasOtherParent child parent = false) :
    (registry.parentOf child).or (some parent) = some parent := by
  rw [hasOtherParent, ← parentOf] at hother
  cases hparent : registry.parentOf child with
  | none => rfl
  | some existing =>
    rw [hparent] at hother
    simp only [decide_eq_false_iff_not, ne_eq, Decidable.not_not] at hother
    rw [hother]
    rfl

/-- A call that enters an edge after the checks keeps the hierarchy. -/
theorem Hierarchy.link {next : SubagentGraphRegistry} {parent : CodexThreadKey}
    (hregistry : registry.Hierarchy)
    (hclimb : climbsTo registry.nodes child [] parent = false)
    (hother : registry.hasOtherParent child parent = false)
    (hchildren : next.children = registry.children.insert parent child)
    (hparents : ∀ key, next.parentOf key =
      if key = child then (registry.parentOf child).or (some parent)
      else registry.parentOf key) : next.Hierarchy := by
  rw [or_some_of_not_hasOtherParent hother] at hparents
  have hlink : next.parentOf child = some parent := by
    rw [hparents, if_pos rfl]
  have hkeep : ∀ key, key ≠ child → next.parentOf key = registry.parentOf key := by
    intro key hkey
    rw [hparents, if_neg hkey]
  refine ⟨hregistry.acyclic.link hlink hkeep
    (not_atOrBelow_of_climbsTo registry [] parent hclimb), ?_⟩
  intro key above
  rw [hchildren, SetTable.mem_members_insert, hregistry.indexed]
  by_cases hkey : key = child
  · subst hkey
    rw [hlink]
    constructor
    · rintro (⟨rfl, _⟩ | hold)
      · rfl
      · have hsame := or_some_of_not_hasOtherParent hother
        rw [hold] at hsame
        exact hsame.symm
    · intro hsome
      exact Or.inl ⟨(some.inj hsome).symm, rfl⟩
  · rw [hkeep key hkey]
    simp [hkey]

theorem bind_parent_put (nodes : ThreadNodes) (row : SubagentThreadNode)
    (key : CodexThreadKey) :
    ((nodes.put row).find? key).bind SubagentThreadNode.parent =
      if key = row.key then row.parent
      else (nodes.find? key).bind SubagentThreadNode.parent := by
  rw [find?_put]
  split
  · rfl
  · rfl

theorem parentOf_linkParent (registry : SubagentGraphRegistry)
    (parent child : CodexThreadKey) (now : Nat) :
    (registry.linkParent parent child now).parentOf = registry.parentOf := by
  funext key
  rw [parentOf, linkParent, KeyedTable.upsert, bind_parent_put, parentOf]
  cases hfind : registry.nodes.find? (placeholderNode parent now).key with
  | none =>
    rw [elim_none]
    split
    · rename_i hkey
      rw [hkey, hfind]
      rfl
    · rfl
  | some node =>
    rw [elim_some, id]
    split
    · rename_i hkey
      rw [hkey, key_of_find? hfind, hfind]
      rfl
    · rfl

theorem parentOf_enterTurn (registry : SubagentGraphRegistry)
    (identity : SourcedTurnIdentity) (observation : TurnObservation)
    (entered : CodexThreadKey) (parent : Option CodexThreadKey)
    (key : CodexThreadKey) :
    (registry.enterTurn identity observation entered parent).parentOf key =
      if key = entered then (registry.parentOf entered).or parent
      else registry.parentOf key := by
  rw [parentOf, enterTurn, bind_parent_put, ← parentOf]
  cases hfind : registry.nodes.find? entered with
  | none =>
    have hentered : registry.parentOf entered = none := by
      rw [parentOf, hfind]
      rfl
    rw [hentered]
    simp only [refreshNode, observedNode, getD_none, none_or,
      Option.or_self]
  | some node =>
    have hkey : node.key = entered := key_of_find? hfind
    have hentered : registry.parentOf entered = node.parent := by
      rw [parentOf, hfind]
      rfl
    rw [hentered]
    simp only [refreshNode, getD_some, hkey]

theorem bind_parent_spawn (registry : SubagentGraphRegistry)
    (activity : CodexSubagentActivity) (child parent key : CodexThreadKey) :
    let node := (registry.nodes.find? child).getD
      (spawnedNode activity child parent)
    ((registry.nodes.put
        { node with parent := node.parent.or (some parent) }).find? key).bind
          SubagentThreadNode.parent =
      if key = child then (registry.parentOf child).or (some parent)
      else registry.parentOf key := by
  simp only
  rw [bind_parent_put, ← parentOf]
  cases hfind : registry.nodes.find? child with
  | none =>
    have hchild : registry.parentOf child = none := by
      rw [parentOf, hfind]
      rfl
    rw [hchild]
    rfl
  | some node =>
    have hkey : node.key = child := key_of_find? hfind
    have hchild : registry.parentOf child = node.parent := by
      rw [parentOf, hfind]
      rfl
    rw [hchild]
    simp only [getD_some, hkey]

section

variable (hregistry : registry.Hierarchy)
include hregistry

theorem Hierarchy.observeTurn (identity : SourcedTurnIdentity)
    (observation : TurnObservation) :
    (registry.observeTurn identity observation).1.Hierarchy := by
  rw [SubagentGraphRegistry.observeTurn]
  split
  · exact hregistry
  · split
    · rename_i sessionId threadId hsession hthread
      simp only
      split
      · split
        · exact hregistry
        · split
          · exact hregistry
          · split
            · exact hregistry
            · rename_i hclimb hother
              apply hregistry.link (Bool.not_eq_true _ ▸ hclimb)
                (Bool.not_eq_true _ ▸ hother) rfl
              intro key
              rw [parentOf_enterTurn, parentOf_linkParent]
      · apply hregistry.congr
        · funext key
          rw [parentOf_enterTurn, or_none]
          split
          · rename_i hkey
            rw [hkey]
          · rfl
        · intro child parent
          rfl
    · exact hregistry

theorem Hierarchy.bindSpawnActivity (activity : CodexSubagentActivity) :
    (registry.bindSpawnActivity activity).1.Hierarchy := by
  rw [SubagentGraphRegistry.bindSpawnActivity]
  simp only
  split
  · exact hregistry
  · split
    · exact hregistry
    · split
      · split
        · exact hregistry
        · exact hregistry
      · split
        · exact hregistry
        · rename_i hclimb _ _ hother
          apply hregistry.link (Bool.not_eq_true _ ▸ hclimb)
            (Bool.not_eq_true _ ▸ hother) rfl
          exact bind_parent_spawn registry activity _ _

theorem mem_leaveParent {key : CodexThreadKey}
    (hnode : registry.nodes.find? key = some removed)
    (child parent : CodexThreadKey) :
    child ∈ (registry.leaveParent removed key).members parent ↔
      child ≠ key ∧ registry.parentOf child = some parent := by
  have hkey : registry.parentOf key = removed.parent := by
    rw [parentOf, hnode]
    rfl
  rw [leaveParent]
  cases hparent : removed.parent with
  | none =>
    simp only
    rw [hregistry.indexed]
    constructor
    · intro hchild
      refine ⟨?_, hchild⟩
      rintro rfl
      rw [hkey, hparent] at hchild
      cases hchild
    · exact And.right
  | some above =>
    simp only
    rw [SetTable.mem_members_discardValue, hregistry.indexed]
    constructor
    · rintro ⟨hchild, hnot⟩
      refine ⟨?_, hchild⟩
      rintro rfl
      rw [hkey, hparent] at hchild
      exact hnot ⟨(some.inj hchild).symm, rfl⟩
    · rintro ⟨hne, hchild⟩
      exact ⟨hchild, fun hsame => hne hsame.2⟩

theorem parentOf_removeThread {key : CodexThreadKey}
    (hnode : registry.nodes.find? key = some removed) (other : CodexThreadKey) :
    (registry.removeThread key).1.parentOf other =
      if other = key ∨ registry.parentOf other = some key then none
      else registry.parentOf other := by
  simp only [removeThread, hnode]
  rw [parentOf, find?_modify, find?_erase]
  by_cases hkey : other = key
  · rw [if_pos hkey, if_pos (Or.inl hkey)]
    rfl
  · rw [if_neg hkey]
    cases hfind : registry.nodes.find? other with
    | none =>
      have hother : registry.parentOf other = none := by
        rw [parentOf, hfind]
        rfl
      simp [hother]
    | some node =>
      have hname : node.key = other := key_of_find? hfind
      have hother : registry.parentOf other = node.parent := by
        rw [parentOf, hfind]
        rfl
      have hdetached := mem_leaveParent hregistry hnode other key
      rw [hother] at hdetached ⊢
      by_cases hchild : node.parent = some key
      · rw [if_pos (Or.inr hchild)]
        have hmem := hdetached.mpr ⟨hkey, hchild⟩
        simp [hname, hmem, hchild]
      · rw [if_neg (by simp [hkey, hchild])]
        simp [hchild]

theorem mem_children_removeThread {key : CodexThreadKey}
    (hnode : registry.nodes.find? key = some removed)
    (child parent : CodexThreadKey) :
    child ∈ (registry.removeThread key).1.children.members parent ↔
      parent ≠ key ∧ child ≠ key ∧ registry.parentOf child = some parent := by
  simp only [removeThread, hnode]
  rw [SetTable.members_erase]
  by_cases hparent : parent = key
  · simp [hparent]
  · rw [if_neg hparent, mem_leaveParent hregistry hnode]
    simp [hparent]

theorem Hierarchy.removeThread (key : CodexThreadKey) :
    (registry.removeThread key).1.Hierarchy := by
  cases hnode : registry.nodes.find? key with
  | none =>
    rw [SubagentGraphRegistry.removeThread, hnode]
    exact hregistry
  | some removed =>
    have hparents := parentOf_removeThread hregistry hnode
    constructor
    · apply hregistry.acyclic.mono
      intro child above hchild
      rw [hparents] at hchild
      split at hchild
      · cases hchild
      · exact hchild
    · intro child parent
      rw [mem_children_removeThread hregistry hnode, hparents]
      constructor
      · rintro ⟨hparent, hchild, hedge⟩
        rw [if_neg]
        · exact hedge
        · rintro (heq | hdetached)
          · exact hchild heq
          · rw [hedge] at hdetached
            exact hparent (some.inj hdetached)
      · intro hedge
        split at hedge
        · cases hedge
        · rename_i hkept
          rw [not_or] at hkept
          refine ⟨?_, hkept.1, hedge⟩
          rintro rfl
          exact hkept.2 hedge

end

/-! ### Pruning -/

theorem expireExecution_frame (state : SubagentGraphRegistry × PruneStats)
    (executionId : String) :
    (expireExecution state executionId).1.nodes = state.1.nodes ∧
      (expireExecution state executionId).1.children = state.1.children := by
  obtain ⟨registry, stats⟩ := state
  cases hfind : registry.executions.find? executionId with
  | none => simp [expireExecution, hfind]
  | some binding => simp [expireExecution, hfind]

theorem expire_frame (registry : SubagentGraphRegistry) (nowMs ttlMs : Nat) :
    (registry.expire nowMs ttlMs).1.nodes = registry.nodes ∧
      (registry.expire nowMs ttlMs).1.children = registry.children := by
  have hfold (ids : List String) (state : SubagentGraphRegistry × PruneStats) :
      (ids.foldl expireExecution state).1.nodes = state.1.nodes ∧
        (ids.foldl expireExecution state).1.children = state.1.children := by
    induction ids generalizing state with
    | nil => exact ⟨rfl, rfl⟩
    | cons id ids ih =>
      obtain ⟨hnodes, hchildren⟩ := ih (expireExecution state id)
      obtain ⟨hnodes', hchildren'⟩ := expireExecution_frame state id
      exact ⟨hnodes.trans hnodes', hchildren.trans hchildren'⟩
  exact hfold (registry.expiredExecutions nowMs ttlMs) (registry, {})

theorem Hierarchy.expire (hregistry : registry.Hierarchy) (nowMs ttlMs : Nat) :
    (registry.expire nowMs ttlMs).1.Hierarchy := by
  obtain ⟨hnodes, hchildren⟩ := expire_frame registry nowMs ttlMs
  apply hregistry.congr
  · funext key
    rw [parentOf, parentOf, hnodes]
  · intro child parent
    rw [hchildren]

theorem evict_cons {maxNodes : Nat} {key : CodexThreadKey}
    {rest : List CodexThreadKey} {stats : PruneStats} :
    ∃ stats', evict maxNodes (key :: rest) (registry, stats) =
      if registry.nodes.rows.length ≤ maxNodes then (registry, stats)
      else evict maxNodes rest ((registry.removeThread key).1, stats') := by
  rw [evict]
  rcases hremove : registry.removeThread key with ⟨next, removed⟩
  cases removed with
  | false => exact ⟨stats, rfl⟩
  | true => exact ⟨_, rfl⟩

theorem Hierarchy.evict (hregistry : registry.Hierarchy) (maxNodes : Nat)
    (keys : List CodexThreadKey) (stats : PruneStats) :
    (evict maxNodes keys (registry, stats)).1.Hierarchy := by
  induction keys generalizing registry stats with
  | nil => exact hregistry
  | cons key keys ih =>
    obtain ⟨stats', hcons⟩ := evict_cons
    rw [hcons]
    split
    · exact hregistry
    · exact ih (hregistry.removeThread key) stats'

theorem Hierarchy.prune (hregistry : registry.Hierarchy)
    (nowMs ttlMs maxNodes : Nat) :
    (registry.prune nowMs ttlMs maxNodes).1.Hierarchy := by
  have hexpired := hregistry.expire nowMs ttlMs
  rw [SubagentGraphRegistry.prune]
  rcases hexpire : registry.expire nowMs ttlMs with ⟨expired, stats⟩
  rw [hexpire] at hexpired
  simp only
  split
  · exact hexpired.evict maxNodes _ stats
  · exact hexpired

/-! ### Runs -/

theorem apply_observeTurn (registry : SubagentGraphRegistry)
    (identity : SourcedTurnIdentity) (observation : TurnObservation) :
    (registry.apply (.observeTurn identity observation)).1 =
      (registry.observeTurn identity observation).1 := by
  rw [SubagentGraphRegistry.apply]
  rcases registry.observeTurn identity observation with ⟨next, _ | _⟩
  · rfl
  · rfl

theorem apply_bindSpawnActivity (registry : SubagentGraphRegistry)
    (activity : CodexSubagentActivity) :
    (registry.apply (.bindSpawnActivity activity)).1 =
      (registry.bindSpawnActivity activity).1 := by
  rw [SubagentGraphRegistry.apply]
  rcases registry.bindSpawnActivity activity with ⟨next, _ | _⟩
  · rfl
  · rfl

theorem Hierarchy.apply (hregistry : registry.Hierarchy) (call : GraphCall) :
    (registry.apply call).1.Hierarchy := by
  cases call with
  | observeTurn identity observation =>
    rw [apply_observeTurn]
    exact hregistry.observeTurn identity observation
  | bindSpawnActivity activity =>
    rw [apply_bindSpawnActivity]
    exact hregistry.bindSpawnActivity activity
  | removeThread key => exact hregistry.removeThread key
  | markExecutionTerminal executionId nowMs =>
    exact hregistry.congr rfl fun _ _ => Iff.rfl
  | prune nowMs ttlMs maxNodes => exact hregistry.prune nowMs ttlMs maxNodes

theorem Reachable.hierarchy (hreachable : registry.Reachable) :
    registry.Hierarchy := by
  induction hreachable with
  | new => exact hierarchy_new
  | reorder _ horder ih => exact horder.hierarchy ih
  | call _ call ih => exact ih.apply call

theorem observeTurn_of_error {identity : SourcedTurnIdentity}
    {observation : TurnObservation}
    (herror : (registry.observeTurn identity observation).2 = .error error) :
    (registry.observeTurn identity observation).1 = registry := by
  rw [SubagentGraphRegistry.observeTurn] at herror ⊢
  split
  · rfl
  · rename_i htrust
    rw [if_neg htrust] at herror
    cases hsession : identity.sessionId with
    | none => rfl
    | some sessionId =>
      cases hthread : identity.threadId with
      | none => rfl
      | some threadId =>
        cases hparent : identity.parentThreadId with
        | none =>
          simp only [hsession, hthread, hparent] at herror
          cases herror
        | some parentId =>
          simp only [hsession, hthread, hparent] at herror ⊢
          split
          · rfl
          · rename_i hself
            rw [if_neg hself] at herror
            split
            · rfl
            · rename_i hclimb
              rw [if_neg hclimb] at herror
              split
              · rfl
              · rename_i hother
                rw [if_neg hother] at herror
                cases herror

theorem bindSpawnActivity_of_error {activity : CodexSubagentActivity}
    (herror : (registry.bindSpawnActivity activity).2 = .error error) :
    (registry.bindSpawnActivity activity).1 = registry := by
  rw [SubagentGraphRegistry.bindSpawnActivity] at herror ⊢
  simp only at herror ⊢
  split
  · rfl
  · rename_i hself
    rw [if_neg hself] at herror
    split
    · rfl
    · rename_i hclimb
      rw [if_neg hclimb] at herror
      cases hfind : registry.spawnBindings.find? activity.callId with
      | some existing =>
        simp only
        split
        · rfl
        · rfl
      | none =>
        simp only [hfind] at herror ⊢
        split
        · rfl
        · rename_i hother
          rw [if_neg hother] at herror
          cases herror

/-- A call that ends in an error has changed nothing. -/
theorem apply_of_error {call : GraphCall}
    (herror : (registry.apply call).2 = some error) :
    (registry.apply call).1 = registry := by
  cases call with
  | observeTurn identity observation =>
    rw [apply_observeTurn]
    rw [SubagentGraphRegistry.apply] at herror
    rcases hcall : registry.observeTurn identity observation with
      ⟨next, _ | _⟩
    · rw [← hcall]
      exact observeTurn_of_error (by rw [hcall])
    · rw [hcall] at herror
      cases herror
  | bindSpawnActivity activity =>
    rw [apply_bindSpawnActivity]
    rw [SubagentGraphRegistry.apply] at herror
    rcases hcall : registry.bindSpawnActivity activity with ⟨next, _ | _⟩
    · rw [← hcall]
      exact bindSpawnActivity_of_error (by rw [hcall])
    · rw [hcall] at herror
      cases herror
  | removeThread key => cases herror
  | markExecutionTerminal executionId nowMs => cases herror
  | prune nowMs ttlMs maxNodes => cases herror

/-- The descendants of a thread as they are meant: each once, and no cycle. -/
structure Descends (registry : SubagentGraphRegistry) (root : CodexThreadKey)
    (maxNodes : Nat) : Prop where
  acyclic : registry.descendantsOf root maxNodes ≠ .error .cycleDetected
  once : ∀ found, registry.descendantsOf root maxNodes = .ok found →
    found.Nodup ∧ ∀ node, node ∈ found ↔ Below registry.parentOf node root
  within : ∀ all : List CodexThreadKey,
    (∀ node, Below registry.parentOf node root → node ∈ all) →
    all.length ≤ maxNodes →
      ∃ found, registry.descendantsOf root maxNodes = .ok found

theorem Hierarchy.traversed (hregistry : registry.Hierarchy)
    (root : CodexThreadKey) (maxNodes : Nat) :
    Traversed registry.parentOf maxNodes root
      (traverse registry.children.members maxNodes root) :=
  traversed_traverse hregistry.acyclic hregistry.indexed
    registry.children.nodup_members

theorem Hierarchy.descends (hregistry : registry.Hierarchy)
    (root : CodexThreadKey) (maxNodes : Nat) :
    registry.Descends root maxNodes := by
  have htraversed := hregistry.traversed root maxNodes
  cases hresult : traverse registry.children.members maxNodes root with
  | ok found =>
    have hfound : registry.descendantsOf root maxNodes = .ok found := by
      rw [descendantsOf, hresult]
    obtain ⟨hnodup, hmem, _⟩ := htraversed.complete found hresult
    constructor
    · rw [hfound]
      intro herror
      cases herror
    · intro other hother
      rw [hfound] at hother
      obtain rfl := Except.ok.inj hother
      exact ⟨hnodup, hmem⟩
    · intro all _ _
      exact ⟨found, hfound⟩
  | error stop =>
    obtain ⟨rfl, found, hnodup, hlength, hbelow⟩ :=
      htraversed.stopped stop hresult
    have hfull : registry.descendantsOf root maxNodes =
        .error (.traversalLimitExceeded maxNodes) := by
      rw [descendantsOf, hresult]
    constructor
    · rw [hfull]
      intro herror
      cases herror
    · intro other hother
      rw [hfull] at hother
      cases hother
    · intro all hall hle
      have hsub : found ⊆ all := fun node hnode =>
        hall node (hbelow node hnode)
      have := (List.subperm_of_subset hnodup hsub).length_le
      omega

namespace Family

/-- A session of three threads, each the parent of the next. -/
def key (thread : String) : CodexThreadKey := ⟨⟨"session"⟩, ⟨thread⟩⟩

def identity (thread : String) (parent : Option String) :
    SourcedTurnIdentity where
  sessionId := some ⟨"session"⟩
  threadId := some ⟨thread⟩
  parentThreadId := parent.map CodexOpaqueId.mk
  trust := .complete
  source := .turnMetadataHeader

def observation (executionId : String) (observedAtMs : Nat) :
    TurnObservation where
  executionId := executionId
  requestId := "request"
  connectionId := none
  routeId := "route"
  model := "model"
  observedAtMs := observedAtMs

def alone : SubagentGraphRegistry :=
  enterTurn {} (identity "root" none) (observation "exec_root" 3) (key "root")
    none

def two : SubagentGraphRegistry :=
  (alone.linkParent (key "root") (key "child") 1).enterTurn
    (identity "child" (some "root")) (observation "exec_child" 1) (key "child")
      (some (key "root"))

def three : SubagentGraphRegistry :=
  (two.linkParent (key "child") (key "grandchild") 2).enterTurn
    (identity "grandchild" (some "child")) (observation "exec_grandchild" 2)
      (key "grandchild") (some (key "child"))

theorem reachable_two : two.Reachable := by
  have halone : alone.Reachable := Reachable.new.call
    (.observeTurn (identity "root" none) (observation "exec_root" 3))
  have hclimb : climbsTo alone.nodes (key "child") [] (key "root") = false :=
    climbsTo_of_root List.not_mem_nil (by decide) (by decide)
  have hturn : (alone.observeTurn (identity "child" (some "root"))
      (observation "exec_child" 1)).1 = two := by
    change Prod.fst (if _ then _ else if climbsTo alone.nodes (key "child") []
      (key "root") then _ else _) = _
    rw [hclimb]
    rfl
  rw [← hturn, ← apply_observeTurn]
  exact halone.call _

theorem reachable_three : three.Reachable := by
  have hclimb : climbsTo two.nodes (key "grandchild") [] (key "child") =
      false := by
    rw [climbsTo_of_parent List.not_mem_nil (by decide)
      (show two.parentOf (key "child") = some (key "root") by decide)]
    exact climbsTo_of_root (by decide) (by decide) (by decide)
  have hturn : (two.observeTurn (identity "grandchild" (some "child"))
      (observation "exec_grandchild" 2)).1 = three := by
    change Prod.fst (if _ then _ else if climbsTo two.nodes (key "grandchild") []
      (key "child") then _ else _) = _
    rw [hclimb]
    rfl
  rw [← hturn, ← apply_observeTurn]
  exact reachable_two.call _

end Family

/-- Whatever the calls, the parents form a forest that the index of children
mirrors, the descendants of a thread are listed once each, and a call that ends
in an error changes nothing. -/
theorem reachable_consistent {registry : SubagentGraphRegistry}
    (hreachable : registry.Reachable) :
    registry.Hierarchy ∧
      (∀ root maxNodes, registry.Descends root maxNodes) ∧
      ∀ call error, (registry.apply call).2 = some error →
        (registry.apply call).1 = registry :=
  ⟨hreachable.hierarchy, hreachable.hierarchy.descends,
    fun _ _ => apply_of_error⟩

theorem Family.consistent_three :
    Family.three.parentOf (Family.key "grandchild") =
        some (Family.key "child") ∧
      Family.three.Hierarchy ∧
      (∀ root maxNodes, Family.three.Descends root maxNodes) ∧
      ∀ call error, (Family.three.apply call).2 = some error →
        (Family.three.apply call).1 = Family.three :=
  ⟨by decide, reachable_consistent Family.reachable_three⟩

end SubagentGraphRegistry

end Vellum.Proxy
