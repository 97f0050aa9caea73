/-
The per-thread actor: its in-memory projection, the fan-in of upstream events
and server requests, what it persists, and how a fresh actor is hydrated from
the store.
-/
import Vellum.Broker.EventStore

namespace Vellum.Broker

def extractThreadId (params : Json) : Option String :=
  ((params.get "threadId").bind Json.asStr).or
    (((params.get "thread").bind (Json.get "id")).bind Json.asStr)

def extractTurnId (value : Json) : Option String :=
  ((value.get "turnId").bind Json.asStr).or
    (((value.get "turn").bind (Json.get "id")).bind Json.asStr)

def extractItemId (payload : Json) : Option String :=
  ((payload.get "itemId").bind Json.asStr).or
    (((payload.get "item").bind (Json.get "id")).bind Json.asStr)

/-- The status a `turn/completed` payload stands for. -/
def turnCompletedStatus (payload : Json) : ThreadRuntimeStatus :=
  let turnStatus :=
    (((payload.pointer ["turn", "status"]).bind Json.asStr).or
      ((payload.get "status").bind Json.asStr)).getD "completed"
  match turnStatus with
  | "failed" => .failed
  | "interrupted" => .interrupted
  | "inProgress" => .running
  | _ => .completed

/-- The official thread status is an object with a `type`; a bare string is
accepted as well. -/
def normalizeThreadStatus (payload : Json) : Option ThreadRuntimeStatus :=
  match ((payload.pointer ["status", "type"]).bind Json.asStr).or
      ((payload.get "type").bind Json.asStr) with
  | some statusType =>
    match statusType with
    | "active" | "running" => some .running
    | "idle" => some .idle
    | "notLoaded" => some .storedNotLoaded
    | "systemError" | "failed" => some .failed
    | "interrupted" => some .interrupted
    | _ => none
  | none =>
    match (payload.get "status").bind Json.asStr with
    | some "running" | some "active" => some .running
    | some "idle" => some .idle
    | some "failed" => some .failed
    | some "interrupted" => some .interrupted
    | _ => none

/-- What an actor broadcasts. -/
inductive ActorEvent where
  | threadEvent (event : ThreadEvent)
  | commandResult (result : ThreadCommandResult)
  | approvalPending (approval : PendingApproval)

/-- The memory of an actor.  `recentItems` are the JSON values of the
remembered events. -/
structure ThreadActor where
  threadId : String
  status : ThreadRuntimeStatus
  loaded : Bool
  activeTurnId : Option String
  recentItems : List SnapshotItem
  usage : Option Json
  subscribers : KeyedTable (Prod.fst : String × SubscriptionMode → String)

namespace ThreadActor

/-- The actor `spawn` starts. -/
def spawn (threadId : String) : ThreadActor where
  threadId := threadId
  status := .idle
  loaded := false
  activeTurnId := none
  recentItems := []
  usage := none
  subscribers := .empty

variable (actor : ThreadActor) (method : String)

/-- The status and active turn after an event. -/
def projectTurn (payload : Json) (turnId : Option String) : ThreadActor :=
  match method with
  | "turn/started" => { actor with status := .running, activeTurnId := turnId }
  | "turn/completed" =>
    let status := turnCompletedStatus payload
    { actor with
      status := status
      activeTurnId := if status = .running then actor.activeTurnId else none }
  | "thread/status/changed" =>
    { actor with
      status := (normalizeThreadStatus payload).getD actor.status }
  | _ => actor

def projectUsage (payload : Json) : ThreadActor :=
  if containsBlock "usage".toList method.toList ||
      (payload.get "usage").isSome then
    { actor with usage := (payload.get "usage").or (some payload) }
  else actor

/-- `project_event`; `ingest_upstream_event` holds a second copy of it. -/
def projectEvent (payload : Json) (turnId : Option String) : ThreadActor :=
  (actor.projectTurn method payload turnId).projectUsage method payload

def rememberEvent (event : ThreadEvent) : ThreadActor :=
  if EventTables.isTimelineMethod event.method then
    { actor with recentItems := actor.recentItems ++ [.event event] }
  else actor

variable (actor : ThreadActor) (method : String) (event : ThreadEvent)
  (snapshot : ThreadSnapshot) (payload : Json)

@[simp]
theorem projectUsage_threadId :
    (actor.projectUsage method payload).threadId = actor.threadId := by
  unfold projectUsage
  split <;> rfl

@[simp]
theorem projectUsage_status :
    (actor.projectUsage method payload).status = actor.status := by
  unfold projectUsage
  split <;> rfl

@[simp]
theorem projectUsage_activeTurnId :
    (actor.projectUsage method payload).activeTurnId = actor.activeTurnId := by
  unfold projectUsage
  split <;> rfl

/-- Only three methods move status or turn. -/
theorem projectTurn_of_other (turnId : Option String)
    (hstarted : method ≠ "turn/started")
    (hcompleted : method ≠ "turn/completed")
    (hchanged : method ≠ "thread/status/changed") :
    actor.projectTurn method payload turnId = actor := by
  unfold projectTurn
  split
  · exact absurd rfl hstarted
  · exact absurd rfl hcompleted
  · exact absurd rfl hchanged
  · rfl

@[simp]
theorem projectEvent_threadId (turnId : Option String) :
    (actor.projectEvent method payload turnId).threadId = actor.threadId := by
  unfold projectEvent projectTurn
  split <;> simp

@[simp]
theorem projectEvent_loaded (turnId : Option String) :
    (actor.projectEvent method payload turnId).loaded = actor.loaded := by
  unfold projectEvent projectTurn projectUsage
  split <;> split <;> rfl

@[simp]
theorem rememberEvent_loaded :
    (actor.rememberEvent event).loaded = actor.loaded := by
  unfold rememberEvent
  split <;> rfl

@[simp]
theorem rememberEvent_threadId :
    (actor.rememberEvent event).threadId = actor.threadId := by
  unfold rememberEvent
  split <;> rfl

@[simp]
theorem rememberEvent_status :
    (actor.rememberEvent event).status = actor.status := by
  unfold rememberEvent
  split <;> rfl

@[simp]
theorem rememberEvent_activeTurnId :
    (actor.rememberEvent event).activeTurnId = actor.activeTurnId := by
  unfold rememberEvent
  split <;> rfl

variable (actor : ThreadActor) (store : EventStore)

def currentSnapshot (latestSeq : Nat) (pending : List PendingApproval)
    (lease : Option WriterLeaseView) : ThreadSnapshot where
  threadId := actor.threadId
  snapshotSeq := latestSeq
  status := actor.status
  loaded := actor.loaded
  activeTurn := actor.activeTurnId.map fun turnId =>
    ⟨turnId, actor.status, none⟩
  pendingApprovals := pending
  items := actor.recentItems
  usage := actor.usage
  writerLease := lease

/-- The approvals and the lease read for a snapshot; `none` when one of the
reads fails. -/
abbrev SnapshotReads := Option (List PendingApproval × Option WriterLeaseView)

/-- `persist_snapshot`, whose result every caller drops. -/
def persistSnapshot (reads : SnapshotReads) : EventStore :=
  match reads with
  | none => store
  | some (pending, lease) =>
    match store.saveSnapshot (actor.currentSnapshot
        (store.latestSeq actor.threadId) pending lease) with
    | .ok saved => saved
    | .error _ => store

/-- The epoch a projection is written with: its own, or the transport's, where
zero means there is none. -/
def projectionEpoch (epoch : Option Nat) (transportEpoch : Nat) : Option Nat :=
  epoch.or (if transportEpoch = 0 then none else some transportEpoch)

/-- `persist_projection`, whose result every caller drops. -/
def persistProjection (epoch : Option Nat) (transportEpoch : Nat) :
    EventStore :=
  store.updateThreadProjection actor.threadId
    { status := actor.status
      loaded := actor.loaded
      activeTurnId := some actor.activeTurnId
      upstreamEpoch := projectionEpoch epoch transportEpoch }

/-- The statuses in which an absent active turn is written down as cleared. -/
def endsTurn : ThreadRuntimeStatus → Bool
  | .completed | .failed | .interrupted | .idle => true
  | _ => false

/-- The projection written with an event. -/
def eventProjection (epoch : Nat) : ThreadProjectionUpdate where
  status := actor.status
  loaded := actor.loaded
  activeTurnId :=
    if endsTurn actor.status && actor.activeTurnId.isNone then some none
    else if actor.activeTurnId.isSome then some actor.activeTurnId
    else none
  upstreamEpoch := some epoch

/-- Whether a stored event is followed by a snapshot. -/
def snapshotDue (status : ThreadRuntimeStatus) (seq : Nat) : Bool :=
  status = .completed || status = .waitingForApproval || seq % 250 = 0

/-- What `ingest_upstream_event` leaves behind.  The event is there, and is
broadcast, when it was stored. -/
structure Ingested where
  actor : ThreadActor
  store : EventStore
  event : Option ThreadEvent

def ingestUpstreamEvent (epoch : Nat) (method : String) (payload : Json)
    (now : Nat) (reads : SnapshotReads) : Ingested :=
  let turnId := extractTurnId payload
  let actor := actor.projectEvent method payload turnId
  match store.appendEvent actor.threadId epoch method payload turnId
      (extractItemId payload) now (actor.eventProjection epoch) with
  | .error _ => ⟨actor, store, none⟩
  | .ok (stored, store) =>
    let event := stored.intoProtocol
    let actor := actor.rememberEvent event
    let store :=
      if snapshotDue actor.status event.seq then
        actor.persistSnapshot store reads
      else store
    ⟨actor, store, some event⟩

/-- The server requests an actor accepts; any other is answered with an
error. -/
def requestsApproval (method : String) : Bool :=
  method = "item/commandExecution/requestApproval" ||
    method = "item/fileChange/requestApproval"

/-- `ingest_server_request`, given the approval the registry made of the
request, if it did.  The approval is broadcast. -/
def ingestServerRequest (epoch transportEpoch : Nat) (method : String)
    (registered : Option PendingApproval) (reads : SnapshotReads) :
    ThreadActor × EventStore × Option PendingApproval :=
  match registered.filter fun _ => requestsApproval method with
  | some approval =>
    let actor := { actor with status := .waitingForApproval }
    let store := actor.persistProjection store (some epoch) transportEpoch
    (actor, actor.persistSnapshot store reads, some approval)
  | none => (actor, store, none)

/-- The `UpstreamDisconnected` message. -/
def upstreamDisconnected (epoch transportEpoch : Nat) :
    ThreadActor × EventStore :=
  let actor := { actor with status := .indeterminate }
  (actor, actor.persistProjection store (some epoch) transportEpoch)

/-- Hydration: the row, over it the newest snapshot, over both a replay of the
four timeline methods. -/
def hydrateFromStore (store : EventTables) : ThreadActor :=
  let actor := match store.threadProjection actor.threadId with
    | some (status, loaded, activeTurnId, _) =>
      { actor with status := status, loaded := loaded,
                   activeTurnId := activeTurnId }
    | none => actor
  let actor := match store.latestSnapshot actor.threadId with
    | some snapshot =>
      { actor with
        status := snapshot.status
        loaded := snapshot.loaded
        activeTurnId := snapshot.activeTurn.map ActiveTurnView.turnId
        usage := snapshot.usage }
    | none => actor
  (store.sessionTimelineEvents actor.threadId).foldl
    (fun actor event =>
      (actor.projectEvent event.method event.payload event.turnId).rememberEvent
        event.intoProtocol)
    { actor with recentItems := [] }

@[simp]
theorem hydrateFromStore_threadId (store : EventTables) :
    (actor.hydrateFromStore store).threadId = actor.threadId := by
  have hfold : ∀ (events : List StoredEvent) (start : ThreadActor),
      (events.foldl (fun actor event =>
        (actor.projectEvent event.method event.payload
          event.turnId).rememberEvent event.intoProtocol) start).threadId =
        start.threadId := by
    intro events
    induction events with
    | nil => intro start; rfl
    | cons event rest ih =>
      intro start
      rw [List.foldl_cons, ih]
      simp
  rw [hydrateFromStore, hfold]
  split <;> split <;> rfl

/-- Whether recovery resumes the thread upstream. -/
def shouldResume (forceResume : Bool) : Bool :=
  actor.loaded ||
    actor.status ∈ [.running, .waitingForApproval, .indeterminate, .loading,
      .orphaned] ||
    actor.activeTurnId.isSome ||
    (forceResume && !actor.subscribers.rows.isEmpty)

/-- The status an answer about the thread brings, if it brings one. -/
def restoreStatus (value : Json) : ThreadActor :=
  { actor with
    status := (normalizeThreadStatus
      ((value.get "thread").getD value)).getD actor.status }

/-- The memory recovery ends with, given the upstream's answers to
`thread/resume` and `thread/read`; `none` where it changes nothing. -/
def recovered (forceResume : Bool) (resume read : Except AppServerError Json) :
    Option ThreadActor :=
  match actor.shouldResume forceResume, resume, read with
  | true, .ok value, _ =>
    let turn := ((value.pointer ["thread", "activeTurnId"]).bind
      Json.asStr).or (extractTurnId value)
    let actor := { actor with loaded := true }.restoreStatus value
    some { actor with activeTurnId := turn.or actor.activeTurnId }
  | _, _, .ok value =>
    let actor := actor.restoreStatus value
    some { actor with
      loaded := if actor.status = .storedNotLoaded then false
        else actor.loaded }
  | true, .error _, .error _ => some { actor with status := .indeterminate }
  | false, _, .error _ => none

theorem recovered_threadId {actor next : ThreadActor} {forceResume : Bool}
    {resume read : Except AppServerError Json}
    (hnext : actor.recovered forceResume resume read = some next) :
    next.threadId = actor.threadId := by
  unfold recovered at hnext
  split at hnext
  · rw [← Option.some.inj hnext]
    rfl
  · rw [← Option.some.inj hnext]
    rfl
  · rw [← Option.some.inj hnext]
  · cases hnext

/-- `recover_on_startup`. -/
def recoverOnStartup (forceResume : Bool)
    (resume read : Except AppServerError Json) (transportEpoch : Nat) :
    ThreadActor × EventStore :=
  match actor.recovered forceResume resume read with
  | some next => (next, next.persistProjection store none transportEpoch)
  | none => (actor, store)

/-- The effect of an executed command on memory and row, given the upstream's
answer to its call. -/
def rememberCommand (command : ThreadCommand)
    (answer : Except AppServerError Json) (transportEpoch : Nat) :
    ThreadActor × EventStore :=
  match command, answer with
  | .threadResume threadId, .ok _ =>
    if threadId = actor.threadId then ({ actor with loaded := true }, store)
    else (actor, store)
  | .turnStart .., .ok value =>
    let actor := { actor with
      status := .running
      activeTurnId := (extractTurnId value).or actor.activeTurnId }
    (actor, actor.persistProjection store (some transportEpoch)
      transportEpoch)
  | .turnInterrupt _, .ok _ =>
    let actor := { actor with status := .interrupted }
    (actor, actor.persistProjection store none transportEpoch)
  | _, _ => (actor, store)

structure AttachResult where
  snapshot : ThreadSnapshot
  replay : List ThreadEvent

/-- What `attach` reads besides the log: the pending approvals, the lease, and
which of its three reads of the event and snapshot stores fail. -/
structure AttachReads where
  pending : List PendingApproval
  lease : Option WriterLeaseView
  latestSeqFails : Bool
  snapshotFails : Bool
  eventsFail : Bool

/-- Whether a stored snapshot is served. -/
def servable (snapshot : ThreadSnapshot) : Bool :=
  !snapshot.items.isEmpty || snapshot.snapshotSeq > 0

/-- A snapshot without items is filled from memory. -/
def fillSnapshot (snapshot : ThreadSnapshot) : ThreadSnapshot :=
  if snapshot.items.isEmpty && !actor.recentItems.isEmpty then
    { snapshot with
      items := actor.recentItems
      usage := actor.usage
      status := actor.status
      loaded := actor.loaded }
  else snapshot

/-- "Cap snapshot seq to known latest thread_seq." -/
def capSnapshot (latestSeq : Nat) (snapshot : ThreadSnapshot) :
    ThreadSnapshot :=
  if snapshot.snapshotSeq > latestSeq then
    { snapshot with snapshotSeq := latestSeq }
  else snapshot

@[simp]
theorem fillSnapshot_snapshotSeq :
    (actor.fillSnapshot snapshot).snapshotSeq = snapshot.snapshotSeq := by
  unfold fillSnapshot
  split <;> rfl

@[simp]
theorem capSnapshot_snapshotSeq (latestSeq : Nat)
    (snapshot : ThreadSnapshot) :
    (capSnapshot latestSeq snapshot).snapshotSeq =
      min snapshot.snapshotSeq latestSeq := by
  unfold capSnapshot
  split
  · exact (Nat.min_eq_right (Nat.le_of_lt ‹_›)).symm
  · exact (Nat.min_eq_left (Nat.le_of_not_lt ‹_›)).symm

@[simp]
theorem fillSnapshot_threadId :
    (actor.fillSnapshot snapshot).threadId = snapshot.threadId := by
  unfold fillSnapshot
  split <;> rfl

@[simp]
theorem capSnapshot_threadId (latestSeq : Nat) (snapshot : ThreadSnapshot) :
    (capSnapshot latestSeq snapshot).threadId = snapshot.threadId := by
  unfold capSnapshot
  split <;> rfl

/-- The replay limit of `attach`. -/
def replayLimit : Nat := 10000

/-- `attach`: the newest stored snapshot, or one made now, and the events after
the snapshot or the client's cursor, whichever is later. -/
def attach (store : EventTables) (lastAckSeq : Nat) (reads : AttachReads) :
    ThreadActor × AttachResult :=
  let actor :=
    if actor.recentItems.isEmpty then actor.hydrateFromStore store else actor
  let latestSeq :=
    if reads.latestSeqFails then 0 else store.latestSeq actor.threadId
  let stored :=
    if reads.snapshotFails then none
    else (store.latestSnapshot actor.threadId).filter servable
  let snapshot := capSnapshot latestSeq (actor.fillSnapshot (stored.getD
    (actor.currentSnapshot latestSeq reads.pending reads.lease)))
  let replayFrom :=
    if snapshot.snapshotSeq > lastAckSeq then snapshot.snapshotSeq
    else lastAckSeq
  let replay :=
    if reads.eventsFail then []
    else store.eventsAfter actor.threadId replayFrom replayLimit
  (actor, ⟨snapshot, replay.map StoredEvent.intoProtocol⟩)

theorem attachMemory_threadId (store : EventTables) :
    (if actor.recentItems.isEmpty then actor.hydrateFromStore store
      else actor).threadId = actor.threadId := by
  split <;> simp

/-- The `AttachClient` message. -/
def attachClient (store : EventTables) (deviceId : String)
    (mode : SubscriptionMode) (lastAckSeq : Nat) (reads : AttachReads) :
    ThreadActor × AttachResult :=
  { actor with subscribers := actor.subscribers.put (deviceId, mode) }.attach
    store lastAckSeq reads

/-- The `DetachClient` message. -/
def detachClient (deviceId : String) : ThreadActor :=
  { actor with subscribers := actor.subscribers.erase deviceId }

end ThreadActor

end Vellum.Broker
