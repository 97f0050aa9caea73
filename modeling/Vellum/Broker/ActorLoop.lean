/-
The message loop of a thread actor: one message at a time, each with what it
reads from the rest of the broker and from the upstream, and with what it
broadcasts and replies.
-/
import Vellum.Broker.HandleCommand

namespace Vellum.Broker

/-- What `handle_command` finds in the command table: the record of the key, if
it can be read, and what the write of the claim fails with. -/
structure CommandLookup where
  record : Option CommandRow
  fault : Option StoreError

/-- The messages of an actor.  `registered` is what the approval registry makes
of a server request; `transportEpoch` is the upstream's current epoch. -/
inductive ThreadActorMessage where
  | attachClient (deviceId : String) (mode : SubscriptionMode)
      (lastAckSeq : Nat) (reads : ThreadActor.AttachReads)
  | detachClient (deviceId : String)
  | clientCommand (deviceId : String) (request : ThreadCommandRequest)
      (lookup : CommandLookup) (outside : CommandOutside)
  | ack (deviceId : String) (throughSeq : Nat)
  | upstreamEvent (epoch : Nat) (method : String) (payload : Json) (now : Nat)
      (reads : ThreadActor.SnapshotReads)
  | upstreamServerRequest (epoch transportEpoch : Nat) (method : String)
      (registered : Option PendingApproval)
      (reads : ThreadActor.SnapshotReads)
  | upstreamDisconnected (epoch transportEpoch : Nat)
  | recoverOnStartup (resume read : Except AppServerError Json)
      (transportEpoch : Nat)
  | recoverAfterReconnect (resume read : Except AppServerError Json)
      (transportEpoch : Nat)
  | createSnapshot (reads : ThreadActor.SnapshotReads)

/-- What a message asks to be told. -/
inductive ActorReply where
  | none
  | attached (result : ThreadActor.AttachResult)
  | answered (result : ThreadCommandResult)

/-- What handling a message leaves behind.  At most one envelope is
broadcast. -/
structure Handled where
  actor : ThreadActor
  store : EventStore
  broadcast : Option ActorEvent
  reply : ActorReply

namespace ThreadActor

/-- The answer to a command that is not executed: the key is blank, a record
answers, or the claim cannot be written. -/
def answeredEarly (digest : Json → String) (actor : ThreadActor)
    (deviceId : String) (request : ThreadCommandRequest)
    (lookup : CommandLookup) : Option ThreadCommandResult :=
  let attempt := Attempt.actorCommand actor.threadId deviceId request
  (attempt.refusal none).or
    ((lookup.record.bind fun row => attempt.replay digest row).or
      (lookup.fault.map fun error => attempt.unclaimed error))

def writerRefused (deviceId : String) (request : ThreadCommandRequest)
    (lease : Option WriterLeaseView) : Bool :=
  requiresWriter request.command &&
    !writerAllowed request.expectedWriterLeaseId lease deviceId

/-- `handle_command`, on the actor's side of it.  Only what is dispatched is
broadcast. -/
def handleCommand (digest : Json → String) (actor : ThreadActor)
    (store : EventStore) (deviceId : String) (request : ThreadCommandRequest)
    (lookup : CommandLookup) (outside : CommandOutside) : Handled :=
  match actor.answeredEarly digest deviceId request lookup with
  | some result => ⟨actor, store, none, .answered result⟩
  | none =>
    if writerRefused deviceId request outside.lease then
      ⟨actor, store, none, .answered (leaseRequired request.idempotencyKey)⟩
    else
      let (result, _) := dispatch actor.threadId request outside
      let (actor, store) := actor.rememberCommand store request.command
        outside.answer outside.epoch
      ⟨actor, store, some (.commandResult result), .answered result⟩

/-- One turn of the loop of `run`. -/
def handle (digest : Json → String) (actor : ThreadActor) (store : EventStore) :
    ThreadActorMessage → Handled
  | .attachClient deviceId mode lastAckSeq reads =>
    let (actor, result) :=
      actor.attachClient store.toEventTables deviceId mode lastAckSeq reads
    ⟨actor, store, none, .attached result⟩
  | .detachClient deviceId => ⟨actor.detachClient deviceId, store, none, .none⟩
  | .clientCommand deviceId request lookup outside =>
    actor.handleCommand digest store deviceId request lookup outside
  | .ack .. => ⟨actor, store, none, .none⟩
  | .upstreamEvent epoch method payload now reads =>
    let ingested :=
      actor.ingestUpstreamEvent store epoch method payload now reads
    ⟨ingested.actor, ingested.store, ingested.event.map .threadEvent, .none⟩
  | .upstreamServerRequest epoch transportEpoch method registered reads =>
    let (actor, store, approval) := actor.ingestServerRequest store epoch
      transportEpoch method registered reads
    ⟨actor, store, approval.map .approvalPending, .none⟩
  | .upstreamDisconnected epoch transportEpoch =>
    let (actor, store) :=
      actor.upstreamDisconnected store epoch transportEpoch
    ⟨actor, store, none, .none⟩
  | .recoverOnStartup resume read transportEpoch =>
    let (actor, store) := (actor.hydrateFromStore store.toEventTables)
      |>.recoverOnStartup store false resume read transportEpoch
    ⟨actor, store, none, .none⟩
  | .recoverAfterReconnect resume read transportEpoch =>
    let (actor, store) :=
      actor.recoverOnStartup store true resume read transportEpoch
    ⟨actor, store, none, .none⟩
  | .createSnapshot reads =>
    ⟨actor, actor.persistSnapshot store reads, none, .none⟩

variable (actor : ThreadActor) (store : EventStore)

theorem ingestUpstreamEvent_threadId (epoch : Nat) (method : String)
    (payload : Json) (now : Nat) (reads : SnapshotReads) :
    (actor.ingestUpstreamEvent store epoch method payload now
      reads).actor.threadId = actor.threadId := by
  unfold ingestUpstreamEvent
  simp only
  split <;> simp

theorem rememberCommand_threadId (command : ThreadCommand)
    (answer : Except AppServerError Json) (transportEpoch : Nat) :
    (actor.rememberCommand store command answer transportEpoch).1.threadId =
      actor.threadId := by
  unfold rememberCommand
  split
  · split <;> rfl
  · rfl
  · rfl
  · rfl

theorem recoverOnStartup_threadId (forceResume : Bool)
    (resume read : Except AppServerError Json) (transportEpoch : Nat) :
    (actor.recoverOnStartup store forceResume resume read
      transportEpoch).1.threadId = actor.threadId := by
  unfold recoverOnStartup
  split
  · exact recovered_threadId ‹_›
  · rfl

theorem handle_threadId (digest : Json → String) (actor : ThreadActor)
    (store : EventStore) (message : ThreadActorMessage) :
    (actor.handle digest store message).actor.threadId = actor.threadId := by
  cases message with
  | attachClient deviceId mode lastAckSeq reads =>
    exact attachMemory_threadId
      { actor with subscribers := actor.subscribers.put (deviceId, mode) }
      store.toEventTables
  | detachClient deviceId => rfl
  | clientCommand deviceId request lookup outside =>
    simp only [handle, handleCommand]
    split
    · rfl
    · split
      · rfl
      · exact rememberCommand_threadId _ _ _ _ _
  | ack deviceId throughSeq => rfl
  | upstreamEvent epoch method payload now reads =>
    exact ingestUpstreamEvent_threadId _ _ _ _ _ _ _
  | upstreamServerRequest epoch transportEpoch method registered reads =>
    simp only [handle, ingestServerRequest]
    split <;> rfl
  | upstreamDisconnected epoch transportEpoch => rfl
  | recoverOnStartup resume read transportEpoch =>
    exact (recoverOnStartup_threadId _ _ _ _ _ _).trans
      (hydrateFromStore_threadId actor store.toEventTables)
  | recoverAfterReconnect resume read transportEpoch =>
    exact recoverOnStartup_threadId _ _ _ _ _ _
  | createSnapshot reads => rfl

/-- What a message that is no upstream event can do to the store: nothing, or
write the projection, a snapshot, or both, of a memory of the same thread. -/
inductive QuietWrite (actor : ThreadActor) (store : EventStore) :
    EventStore → Prop
  | nothing : QuietWrite actor store store
  | projection (memory : ThreadActor) (epoch : Option Nat)
      (transportEpoch : Nat) : memory.threadId = actor.threadId →
      QuietWrite actor store
        (memory.persistProjection store epoch transportEpoch)
  | snapshot (memory : ThreadActor) (reads : SnapshotReads) :
      memory.threadId = actor.threadId →
      QuietWrite actor store (memory.persistSnapshot store reads)
  | both (memory : ThreadActor) (epoch : Option Nat) (transportEpoch : Nat)
      (reads : SnapshotReads) : memory.threadId = actor.threadId →
      QuietWrite actor store (memory.persistSnapshot
        (memory.persistProjection store epoch transportEpoch) reads)

theorem quietWrite_rememberCommand (command : ThreadCommand)
    (answer : Except AppServerError Json) (transportEpoch : Nat) :
    actor.QuietWrite store
      (actor.rememberCommand store command answer transportEpoch).2 := by
  unfold rememberCommand
  split
  · split <;> exact .nothing
  · exact .projection _ _ _ rfl
  · exact .projection _ _ _ rfl
  · exact .nothing

theorem quietWrite_recoverOnStartup {actor memory : ThreadActor}
    (hthread : memory.threadId = actor.threadId) (forceResume : Bool)
    (resume read : Except AppServerError Json) (transportEpoch : Nat) :
    actor.QuietWrite store (memory.recoverOnStartup store forceResume resume
      read transportEpoch).2 := by
  unfold recoverOnStartup
  split
  · exact .projection _ _ _ ((recovered_threadId ‹_›).trans hthread)
  · exact .nothing

/-- Only upstream events are stored and broadcast as thread events. -/
theorem handle_quiet (digest : Json → String) (actor : ThreadActor)
    (store : EventStore) {message : ThreadActorMessage}
    (hmessage : ∀ epoch method payload now reads,
      message ≠ .upstreamEvent epoch method payload now reads) :
    actor.QuietWrite store (actor.handle digest store message).store ∧
      ∀ event, (actor.handle digest store message).broadcast ≠
        some (.threadEvent event) := by
  cases message with
  | attachClient | detachClient | ack => exact ⟨.nothing, by rintro _ ⟨⟩⟩
  | clientCommand deviceId request lookup outside =>
    simp only [handle, handleCommand]
    split
    · exact ⟨.nothing, by rintro _ ⟨⟩⟩
    · split
      · exact ⟨.nothing, by rintro _ ⟨⟩⟩
      · exact ⟨quietWrite_rememberCommand _ _ _ _ _, by rintro _ ⟨⟩⟩
  | upstreamEvent => exact absurd rfl (hmessage _ _ _ _ _)
  | upstreamServerRequest epoch transportEpoch method registered reads =>
    simp only [handle, ingestServerRequest]
    split
    · exact ⟨.both { actor with status := .waitingForApproval } _ _ _ rfl,
        by rintro _ ⟨⟩⟩
    · exact ⟨.nothing, by rintro _ ⟨⟩⟩
  | upstreamDisconnected epoch transportEpoch =>
    exact ⟨.projection { actor with status := .indeterminate } _ _ rfl,
      by rintro _ ⟨⟩⟩
  | recoverOnStartup resume read transportEpoch =>
    exact ⟨quietWrite_recoverOnStartup _
      (hydrateFromStore_threadId actor store.toEventTables) _ _ _ _,
      by rintro _ ⟨⟩⟩
  | recoverAfterReconnect resume read transportEpoch =>
    exact ⟨quietWrite_recoverOnStartup _ rfl _ _ _ _, by rintro _ ⟨⟩⟩
  | createSnapshot reads => exact ⟨.snapshot _ _ rfl, by rintro _ ⟨⟩⟩

end ThreadActor

end Vellum.Broker
