/-
The hierarchy of agent threads (`vellum-proxy-runtime/src/subagent_graph.rs`).
An edge is held twice: in the node of the child, as its parent, and in an index
of children, which the cancellation of a thread is fanned out over.
-/
import Vellum.Library.Forest
import Vellum.Library.SetTable
import Vellum.Proxy.CodexMetadata

namespace Vellum.Proxy

structure CodexThreadKey where
  sessionId : CodexOpaqueId
  threadId : CodexOpaqueId
deriving DecidableEq

def CodexThreadKey.formatted (key : CodexThreadKey) : String :=
  key.sessionId.text ++ ":" ++ key.threadId.text

structure CodexTurnKey where
  thread : CodexThreadKey
  turnId : CodexOpaqueId
deriving DecidableEq

inductive CodexIdentitySource where
  | none
  | canonicalClientMetadata
  | turnMetadataHeader
  | flatCompatibilityHeaders
  | mergedStructuredAndCompatibility
  | legacyHeuristic

/-- The identity of a turn with the place it was read from. -/
structure SourcedTurnIdentity extends CodexTurnIdentity where
  source : CodexIdentitySource := .none

structure SubagentThreadNode where
  key : CodexThreadKey
  parent : Option CodexThreadKey
  parentTurnId : Option CodexOpaqueId
  rootTurnId : Option CodexOpaqueId
  forkedFromThreadId : Option CodexOpaqueId
  agentName : Option String
  subagentKind : Option String
  latestContextWindowId : Option CodexOpaqueId
  firstSeenMs : Nat
  lastSeenMs : Nat
  terminal : Bool

structure ThreadExecutionBinding where
  executionId : String
  requestId : String
  thread : CodexThreadKey
  turnId : Option CodexOpaqueId
  rootTurnId : Option CodexOpaqueId
  contextWindowId : Option CodexOpaqueId
  connectionId : Option String
  routeId : String
  model : String
  startedAtMs : Nat

inductive SpawnBindingSource where
  | appServerActivity
  | exactDataPlaneCorrelation
  | legacyHeuristic

/-- A subagent activity; its status is not read. -/
structure CodexSubagentActivity where
  sessionId : CodexOpaqueId
  parentThreadId : CodexOpaqueId
  callId : String
  childThreadId : CodexOpaqueId
  agentPath : Option String

structure SpawnCallBinding where
  parent : CodexThreadKey
  callId : String
  child : CodexThreadKey
  observedAtMs : Nat
  source : SpawnBindingSource

structure SpawnBindingResult where
  inserted : Bool
  duplicate : Bool
  conflict : Bool

structure TurnObservation where
  executionId : String
  requestId : String
  connectionId : Option String
  routeId : String
  model : String
  observedAtMs : Nat

/-- The link methods that an observation gives. -/
inductive SubagentLinkMethod where
  | officialThreadMetadata
  | compatibilityHeader
  | none

inductive LinkConfidence where
  | high
  | medium
  | none

structure GraphObservation where
  thread : Option CodexThreadKey
  parent : Option CodexThreadKey
  edgeCreated : Bool
  executionBound : Bool
  linkMethod : SubagentLinkMethod
  confidence : LinkConfidence

structure PruneStats where
  nodesPruned : Nat := 0
  executionsPruned : Nat := 0
  bindingsPruned : Nat := 0

inductive SubagentGraphError where
  | conflictingParent (child : String)
  | selfParent (thread : String)
  | spawnBindingConflict (callId : String)
  | cycleDetected
  | traversalLimitExceeded (maxNodes : Nat)

abbrev ThreadNodes := KeyedTable SubagentThreadNode.key

structure SubagentGraphRegistry where
  nodes : ThreadNodes := KeyedTable.empty
  executions : KeyedTable ThreadExecutionBinding.executionId :=
    KeyedTable.empty
  threadExecutions : SetTable CodexThreadKey String := KeyedTable.empty
  turnExecutions : SetTable CodexTurnKey String := KeyedTable.empty
  children : SetTable CodexThreadKey CodexThreadKey := KeyedTable.empty
  spawnBindings : KeyedTable SpawnCallBinding.callId := KeyedTable.empty
  executionTerminal : KeyedTable (Prod.fst : String × Nat → String) :=
    KeyedTable.empty

/-- The walk up from a new parent comes by the child, or by a thread it has
come by before.  Either is reported as a cycle. -/
def climbsTo (nodes : ThreadNodes) (child : CodexThreadKey)
    (seen : List CodexThreadKey) (current : CodexThreadKey) : Bool :=
  if hseen : current ∈ seen then true
  else if current = child then true
  else
    match hfind : nodes.find? current with
    | none => false
    | some node =>
      match node.parent with
      | none => false
      | some next =>
        have := KeyedTable.remaining_lt hseen hfind
        climbsTo nodes child (current :: seen) next
termination_by nodes.remaining seen

namespace SubagentGraphRegistry

variable (registry : SubagentGraphRegistry) (identity : SourcedTurnIdentity)

/-- The thread has a node with another parent. -/
def hasOtherParent (child parent : CodexThreadKey) : Bool :=
  match (registry.nodes.find? child).bind SubagentThreadNode.parent with
  | some existing => existing ≠ parent
  | none => false

/-- The node of a thread that is only known as a parent. -/
def placeholderNode (key : CodexThreadKey) (now : Nat) : SubagentThreadNode where
  key := key
  parent := none
  parentTurnId := none
  rootTurnId := none
  forkedFromThreadId := none
  agentName := none
  subagentKind := none
  latestContextWindowId := none
  firstSeenMs := now
  lastSeenMs := now
  terminal := false

/-- The node of the thread that a turn is observed on. -/
def observedNode (key : CodexThreadKey) (parent : Option CodexThreadKey)
    (now : Nat) : SubagentThreadNode where
  key := key
  parent := parent
  parentTurnId := identity.parentTurnId
  rootTurnId := identity.rootTurnId
  forkedFromThreadId := identity.forkedFromThreadId
  agentName := identity.agentName
  subagentKind := identity.subagentKind
  latestContextWindowId := identity.contextWindowId
  firstSeenMs := now
  lastSeenMs := now
  terminal := false

/-- A node after one more turn: what it has not known before is filled in, what
may change is overwritten. -/
def refreshNode (parent : Option CodexThreadKey) (now : Nat)
    (node : SubagentThreadNode) : SubagentThreadNode :=
  { node with
    lastSeenMs := now
    parent := node.parent.or parent
    parentTurnId := node.parentTurnId.or identity.parentTurnId
    rootTurnId := node.rootTurnId.or identity.rootTurnId
    latestContextWindowId :=
      identity.contextWindowId.or node.latestContextWindowId
    agentName := identity.agentName.or node.agentName
    subagentKind := identity.subagentKind.or node.subagentKind }

def unobserved : GraphObservation :=
  ⟨none, none, false, false, .none, .none⟩

def linkMethodOf : CodexIdentitySource → SubagentLinkMethod
  | .turnMetadataHeader | .canonicalClientMetadata => .officialThreadMetadata
  | .flatCompatibilityHeaders => .compatibilityHeader
  | _ => .officialThreadMetadata

def confidenceOf : CodexIdentityTrust → LinkConfidence
  | .complete | .structured => .high
  | .fragment => .medium
  | _ => .none

/-- Make sure that the parent has a node, and enter the edge in the index. -/
def linkParent (parent child : CodexThreadKey) (now : Nat) :
    SubagentGraphRegistry :=
  { registry with
    nodes := registry.nodes.upsert (placeholderNode parent now) id
    children := registry.children.insert parent child }

/-- Enter the thread of a turn and the execution of the turn. -/
def enterTurn (observation : TurnObservation) (key : CodexThreadKey)
    (parent : Option CodexThreadKey) : SubagentGraphRegistry :=
  let now := observation.observedAtMs
  { registry with
    nodes := registry.nodes.put (refreshNode identity parent now
      ((registry.nodes.find? key).getD (observedNode identity key parent now)))
    executions := registry.executions.put
      { executionId := observation.executionId
        requestId := observation.requestId
        thread := key
        turnId := identity.turnId
        rootTurnId := identity.rootTurnId
        contextWindowId := identity.contextWindowId
        connectionId := observation.connectionId
        routeId := observation.routeId
        model := observation.model
        startedAtMs := now }
    threadExecutions :=
      registry.threadExecutions.insert key observation.executionId
    turnExecutions :=
      match identity.turnId with
      | some turnId =>
        registry.turnExecutions.insert ⟨key, turnId⟩ observation.executionId
      | none => registry.turnExecutions }

def observeTurn (observation : TurnObservation) :
    SubagentGraphRegistry × Except SubagentGraphError GraphObservation :=
  if identity.trust = .conflict then (registry, .ok unobserved)
  else
    match identity.sessionId, identity.threadId with
    | some sessionId, some threadId =>
      let current : CodexThreadKey := ⟨sessionId, threadId⟩
      let outcome (parent : Option CodexThreadKey) (edgeCreated : Bool) :
          GraphObservation :=
        { thread := some current
          parent
          edgeCreated
          executionBound := true
          linkMethod := linkMethodOf identity.source
          confidence := confidenceOf identity.trust }
      match identity.parentThreadId with
      | some parentId =>
        let parent : CodexThreadKey := ⟨sessionId, parentId⟩
        if parent = current then
          (registry, .error (.selfParent current.formatted))
        else if climbsTo registry.nodes current [] parent then
          (registry, .error .cycleDetected)
        else if registry.hasOtherParent current parent then
          (registry, .error (.conflictingParent current.formatted))
        else
          ((registry.linkParent parent current
              observation.observedAtMs).enterTurn identity observation
                current (some parent),
            .ok (outcome (some parent)
              (current ∉ registry.children.members parent)))
      | none =>
        (registry.enterTurn identity observation current none,
          .ok (outcome none false))
    | _, _ => (registry, .ok unobserved)

/-- The node of a thread that is only known from its spawn. -/
def spawnedNode (activity : CodexSubagentActivity)
    (child parent : CodexThreadKey) : SubagentThreadNode where
  key := child
  parent := some parent
  parentTurnId := none
  rootTurnId := none
  forkedFromThreadId := none
  agentName := activity.agentPath
  subagentKind := none
  latestContextWindowId := none
  firstSeenMs := 0
  lastSeenMs := 0
  terminal := false

def bindSpawnActivity (activity : CodexSubagentActivity) :
    SubagentGraphRegistry × Except SubagentGraphError SpawnBindingResult :=
  let parent : CodexThreadKey := ⟨activity.sessionId, activity.parentThreadId⟩
  let child : CodexThreadKey := ⟨activity.sessionId, activity.childThreadId⟩
  if parent = child then (registry, .error (.selfParent child.formatted))
  else if climbsTo registry.nodes child [] parent then
    (registry, .error .cycleDetected)
  else
    match registry.spawnBindings.find? activity.callId with
    | some existing =>
      if existing.parent = parent ∧ existing.child = child then
        (registry, .ok ⟨false, true, false⟩)
      else (registry, .error (.spawnBindingConflict activity.callId))
    | none =>
      if registry.hasOtherParent child parent then
        (registry, .error (.conflictingParent child.formatted))
      else
        let node := (registry.nodes.find? child).getD
          (spawnedNode activity child parent)
        ({ registry with
            children := registry.children.insert parent child
            nodes := registry.nodes.put
              { node with parent := node.parent.or (some parent) }
            spawnBindings := registry.spawnBindings.put
              { parent
                callId := activity.callId
                child
                observedAtMs := 0
                source := .appServerActivity } },
          .ok ⟨true, false, false⟩)

/-- All descendants of a thread, breadth first. -/
def descendantsOf (root : CodexThreadKey) (maxNodes : Nat) :
    Except SubagentGraphError (List CodexThreadKey) :=
  match Forest.traverse registry.children.members maxNodes root with
  | .ok found => .ok found
  | .error .repeated => .error .cycleDetected
  | .error .exceeded => .error (.traversalLimitExceeded maxNodes)

def activeExecutionsForThread (thread : CodexThreadKey) : List String :=
  (registry.threadExecutions.members thread).filter fun id =>
    (registry.executionTerminal.find? id).isNone

/-- The executions that a cancellation of the thread is fanned out to. -/
def activeDescendantExecutions (root : CodexThreadKey) (maxNodes : Nat) :
    Except SubagentGraphError (List String) :=
  (registry.descendantsOf root maxNodes).map fun descendants =>
    descendants.flatMap registry.activeExecutionsForThread

def markExecutionTerminal (executionId : String) (nowMs : Nat) :
    SubagentGraphRegistry × Bool :=
  ({ registry with
      executionTerminal := registry.executionTerminal.put
        (executionId, nowMs) },
    (registry.executionTerminal.find? executionId).isNone)

/-- The index without a removed thread among the children of its parent. -/
def leaveParent (removed : SubagentThreadNode) (key : CodexThreadKey) :
    SetTable CodexThreadKey CodexThreadKey :=
  match removed.parent with
  | some parent => registry.children.discardValue parent key
  | none => registry.children

def removeThread (key : CodexThreadKey) : SubagentGraphRegistry × Bool :=
  match registry.nodes.find? key with
  | none => (registry, false)
  | some removed =>
    let children := registry.leaveParent removed key
    let detached := children.members key
    let executions := registry.threadExecutions.members key
    let next : SubagentGraphRegistry :=
      { nodes := (registry.nodes.erase key).modify
          (fun node => node.key ∈ detached && node.parent = some key)
          (fun node => { node with parent := none }) fun _ => rfl
        executions := registry.executions.retain fun binding =>
          binding.executionId ∉ executions
        threadExecutions := registry.threadExecutions.erase key
        turnExecutions := registry.turnExecutions.retain fun row =>
          row.1.thread ≠ key
        children := children.erase key
        spawnBindings := registry.spawnBindings.retain fun binding =>
          binding.parent ≠ key && binding.child ≠ key
        executionTerminal := registry.executionTerminal.retain fun row =>
          row.1 ∉ executions }
    (next, true)

/-- Forget one execution that has been terminal for too long. -/
def expireExecution (state : SubagentGraphRegistry × PruneStats)
    (executionId : String) : SubagentGraphRegistry × PruneStats :=
  let (registry, stats) := state
  let terminal := registry.executionTerminal.erase executionId
  match registry.executions.find? executionId with
  | some binding =>
    ({ registry with
        executions := registry.executions.erase executionId
        threadExecutions := registry.threadExecutions.removeValue
          binding.thread executionId
        executionTerminal := terminal },
      { stats with executionsPruned := stats.executionsPruned + 1 })
  | none => ({ registry with executionTerminal := terminal }, stats)

/-- Turns keep the executions that are still known. -/
def cleanTurns : SubagentGraphRegistry :=
  { registry with
    turnExecutions :=
      (registry.turnExecutions.modify (fun _ => true)
        (fun row => (row.1, row.2.retain fun id =>
          (registry.executions.find? id).isSome)) fun _ => rfl).retain
        fun row => !row.2.rows.isEmpty }

def expiredExecutions (nowMs ttlMs : Nat) : List String :=
  (registry.executionTerminal.rows.filter fun row =>
    ttlMs < nowMs - row.2).map Prod.fst

/-- The first part of a prune: expired executions go. -/
def expire (nowMs ttlMs : Nat) : SubagentGraphRegistry × PruneStats :=
  let (expired, stats) := (registry.expiredExecutions nowMs ttlMs).foldl
    expireExecution (registry, {})
  (expired.cleanTurns, stats)

/-- The threads without an active execution, those seen longest ago first. -/
def inactiveThreads : List CodexThreadKey :=
  (((registry.nodes.rows.filter fun node =>
    (registry.activeExecutionsForThread node.key).isEmpty).map fun node =>
      (node.key, node.lastSeenMs)).insertionSort fun one other =>
        one.2 ≤ other.2).map Prod.fst

/-- Remove threads until the registry is within its capacity. -/
def evict (maxNodes : Nat) :
    List CodexThreadKey → SubagentGraphRegistry × PruneStats →
      SubagentGraphRegistry × PruneStats
  | [], state => state
  | key :: rest, (registry, stats) =>
    if registry.nodes.rows.length ≤ maxNodes then (registry, stats)
    else
      match registry.removeThread key with
      | (next, true) =>
        evict maxNodes rest
          (next, { stats with nodesPruned := stats.nodesPruned + 1 })
      | (next, false) => evict maxNodes rest (next, stats)

def prune (nowMs ttlMs maxNodes : Nat) : SubagentGraphRegistry × PruneStats :=
  let (expired, stats) := registry.expire nowMs ttlMs
  if maxNodes < expired.nodes.rows.length then
    evict maxNodes expired.inactiveThreads (expired, stats)
  else (expired, stats)

/-- The calls that change a registry. -/
inductive GraphCall where
  | observeTurn (identity : SourcedTurnIdentity)
      (observation : TurnObservation)
  | bindSpawnActivity (activity : CodexSubagentActivity)
  | removeThread (key : CodexThreadKey)
  | markExecutionTerminal (executionId : String) (nowMs : Nat)
  | prune (nowMs ttlMs maxNodes : Nat)

/-- The registry after a call, and the error if it ends in one. -/
def apply : GraphCall → SubagentGraphRegistry × Option SubagentGraphError
  | .observeTurn identity observation =>
    match registry.observeTurn identity observation with
    | (next, .ok _) => (next, none)
    | (next, .error error) => (next, some error)
  | .bindSpawnActivity activity =>
    match registry.bindSpawnActivity activity with
    | (next, .ok _) => (next, none)
    | (next, .error error) => (next, some error)
  | .removeThread key => ((registry.removeThread key).1, none)
  | .markExecutionTerminal executionId nowMs =>
    ((registry.markExecutionTerminal executionId nowMs).1, none)
  | .prune nowMs ttlMs maxNodes =>
    ((registry.prune nowMs ttlMs maxNodes).1, none)

/-- The same registry, its maps iterated in another order. -/
structure Reordered (left right : SubagentGraphRegistry) : Prop where
  nodes : left.nodes.Reordered right.nodes
  executions : left.executions.Reordered right.executions
  threadExecutions : left.threadExecutions.Reordered right.threadExecutions
  turnExecutions : left.turnExecutions.Reordered right.turnExecutions
  children : left.children.Reordered right.children
  spawnBindings : left.spawnBindings.Reordered right.spawnBindings
  executionTerminal : left.executionTerminal.Reordered right.executionTerminal

/-- What a sequence of calls on a new registry can lead to; the maps may
iterate in another order at any time. -/
inductive Reachable : SubagentGraphRegistry → Prop
  | new : Reachable {}
  | reorder {registry reordered : SubagentGraphRegistry}
      (hreachable : Reachable registry)
      (horder : registry.Reordered reordered) : Reachable reordered
  | call {registry : SubagentGraphRegistry} (hreachable : Reachable registry)
      (call : GraphCall) : Reachable (registry.apply call).1

end SubagentGraphRegistry

end Vellum.Proxy
