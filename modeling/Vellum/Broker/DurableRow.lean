/-
When the durable row of a thread and the memory of its actor agree.  Writing an
event settles the status column always, and the active-turn column exactly when
the actor knows its turn, the turn has ended, or there is no turn id anywhere
to bring in.
-/
import Vellum.Broker.ThreadActor

namespace Vellum.Broker

open ThreadActor

/-- Status text and active turn of a row: the durable projection. -/
def ThreadRow.projection (row : ThreadRow) : String × Option String :=
  (row.latestStatus, row.activeTurnId)

/-- The durable row of the actor's thread shows the actor's status and turn. -/
def RowShows (store : EventTables) (actor : ThreadActor) : Prop :=
  ∃ row, store.threads.find? actor.threadId = some row ∧
    row.projection = (statusName actor.status, actor.activeTurnId)

/-- The durable active turn of a thread. -/
def durableTurn (store : EventTables) (threadId : String) : Option String :=
  (store.threads.find? threadId).bind ThreadRow.activeTurnId

theorem saveSnapshot_projection {store saved : EventStore}
    {snapshot : ThreadSnapshot} (hsave : store.saveSnapshot snapshot = .ok saved)
    (threadId : String) :
    (saved.threads.find? threadId).map ThreadRow.projection =
      (store.threads.find? threadId).map ThreadRow.projection := by
  have htables := (EventStore.saveSnapshot_ok_iff _ _ _).mp hsave
  unfold EventTables.saveSnapshot at htables
  split at htables
  · rw [Except.ok.injEq] at htables
    rw [← htables]
    refine (congrArg (Option.map ThreadRow.projection)
      (EventTables.find?_updateThread _ snapshot.threadId
        (ThreadRow.noteSnapshot snapshot.snapshotSeq)
        (ThreadRow.noteSnapshot_threadId _) threadId)).trans ?_
    by_cases hthread : threadId = snapshot.threadId
    · rw [if_pos hthread, Option.map_map]
      rfl
    · rw [if_neg hthread]
  · cases htables

variable (actor : ThreadActor) (store : EventStore)
  (reads : ThreadActor.SnapshotReads)

theorem persistSnapshot_projection (threadId : String) :
    ((actor.persistSnapshot store reads).threads.find? threadId).map
        ThreadRow.projection =
      (store.threads.find? threadId).map ThreadRow.projection := by
  unfold ThreadActor.persistSnapshot
  split
  · rfl
  · split
    · rename_i saved hsave
      exact saveSnapshot_projection hsave threadId
    · rfl

theorem persistProjection_events (epoch : Option Nat) (transportEpoch : Nat) :
    (actor.persistProjection store epoch transportEpoch).events =
      store.events := by
  simp only [ThreadActor.persistProjection, EventStore.updateThreadProjection,
    EventTables.updateThreadProjection]
  split <;> rfl

theorem persistSnapshot_events :
    (actor.persistSnapshot store reads).events = store.events := by
  unfold ThreadActor.persistSnapshot
  split
  · rfl
  · split
    · rename_i saved hsave
      rw [EventStore.saveSnapshot_ok_iff, EventTables.saveSnapshot] at hsave
      split at hsave
      · rw [← Except.ok.inj hsave]
        rfl
      · cases hsave
    · rfl

theorem rowShows_iff (store : EventTables) (actor : ThreadActor) :
    RowShows store actor ↔
      (store.threads.find? actor.threadId).map ThreadRow.projection =
        some (statusName actor.status, actor.activeTurnId) := by
  rw [RowShows, Option.map_eq_some_iff]

/-- The active turn `append_event` leaves in the row. -/
def writtenTurn (projected : ThreadActor) (turnId rowTurn : Option String) :
    Option String :=
  if ThreadActor.endsTurn projected.status && projected.activeTurnId.isNone then
    none
  else if projected.activeTurnId.isSome then projected.activeTurnId
  else turnId.or rowTurn

/-- The turn written is the turn in memory unless memory has none, the status
leaves the column alone, and the event or the row brings one in. -/
theorem writtenTurn_eq_iff (projected : ThreadActor)
    (turnId rowTurn : Option String) :
    writtenTurn projected turnId rowTurn = projected.activeTurnId ↔
      projected.activeTurnId.isSome ∨
        ThreadActor.endsTurn projected.status ∨
        turnId = none ∧ rowTurn = none := by
  unfold writtenTurn
  cases hmemory : projected.activeTurnId with
  | some turn => simp
  | none =>
    by_cases hends : ThreadActor.endsTurn projected.status
    · simp [hends]
    · simp [hends, Option.or_eq_none_iff]

/-- What an ingested event does.  Memory follows the event whether or not it
is stored; a stored one is remembered, and a snapshot may follow. -/
theorem ingestUpstreamEvent_cases (actor : ThreadActor) (store : EventStore)
    (epoch : Nat) (method : String) (payload : Json) (now : Nat)
    (reads : ThreadActor.SnapshotReads) :
    let projected := actor.projectEvent method payload (extractTurnId payload)
    let ingested :=
      actor.ingestUpstreamEvent store epoch method payload now reads
    2 ^ 63 ≤ store.events.length + 1 ∧
        ingested = ⟨projected, store, none⟩ ∨
      ∃ stored next,
        store.toEventTables.appendEvent actor.threadId epoch method payload
            (extractTurnId payload) (extractItemId payload) now
            (projected.eventProjection epoch) =
          .ok (stored, next.toEventTables) ∧
        ingested.actor = projected.rememberEvent stored.intoProtocol ∧
        ingested.event = some stored.intoProtocol ∧
        ingested.store =
          if ThreadActor.snapshotDue projected.status stored.threadSeq then
            ingested.actor.persistSnapshot next reads
          else next := by
  intro projected ingested
  cases happend : store.appendEvent actor.threadId epoch method payload
      (extractTurnId payload) (extractItemId payload) now
      (projected.eventProjection epoch) with
  | error error =>
    refine Or.inl ⟨EventStore.full_of_appendEvent_error happend, ?_⟩
    simp [ingested, ThreadActor.ingestUpstreamEvent, projected, happend]
  | ok result =>
    obtain ⟨stored, next⟩ := result
    have htables := (EventStore.appendEvent_ok_iff _ _ _ _ _ _ _ _ _ _
      _).mp happend
    refine Or.inr ⟨stored, next, htables, ?_, ?_, ?_⟩
    · simp [ingested, ThreadActor.ingestUpstreamEvent, projected, happend]
    · simp [ingested, ThreadActor.ingestUpstreamEvent, projected, happend]
    · simp [ingested, ThreadActor.ingestUpstreamEvent, projected, happend,
        StoredEvent.intoProtocol]

/-- The row after an append: the projected status, and the written turn. -/
theorem appendEvent_projection {store next : EventTables}
    {projected : ThreadActor} {epoch : Nat} {threadId method : String}
    {payload : Json} {turnId itemId : Option String} {now : Nat}
    {stored : StoredEvent}
    (happend : store.appendEvent threadId epoch method payload turnId itemId now
      (projected.eventProjection epoch) = .ok (stored, next)) :
    (next.threads.find? threadId).map ThreadRow.projection =
      some (statusName projected.status,
        writtenTurn projected turnId (durableTurn store threadId)) := by
  obtain ⟨-, hevent, -, -, hthreads⟩ := EventTables.appendEvent_ok happend
  have hturn : stored.turnId = turnId := by rw [hevent]
  rw [hthreads, if_pos rfl, durableTurn]
  cases hfind : store.threads.find? threadId with
  | none =>
    cases hmemory : projected.activeTurnId <;>
      by_cases hends : ThreadActor.endsTurn projected.status <;>
      simp [ThreadRow.projection, ThreadRow.recordEvent, ThreadRow.fresh,
        ThreadActor.eventProjection, writtenTurn, hmemory, hends, hturn]
  | some row =>
    cases hmemory : projected.activeTurnId <;>
      by_cases hends : ThreadActor.endsTurn projected.status <;>
      simp [ThreadRow.projection, ThreadRow.recordEvent,
        ThreadRow.coalesceCwd, ThreadActor.eventProjection, writtenTurn,
        hmemory, hends, hturn]

/-- What a stored event leaves in memory and in the row.  The snapshot that may
follow touches neither. -/
theorem ingestUpstreamEvent_stored (epoch : Nat) (method : String)
    (payload : Json) (now : Nat) (reads : ThreadActor.SnapshotReads)
    (hstored : (actor.ingestUpstreamEvent store epoch method payload now
      reads).event.isSome) :
    let projected := actor.projectEvent method payload (extractTurnId payload)
    let ingested :=
      actor.ingestUpstreamEvent store epoch method payload now reads
    ingested.actor.threadId = actor.threadId ∧
      ingested.actor.status = projected.status ∧
      ingested.actor.activeTurnId = projected.activeTurnId ∧
      (ingested.store.threads.find? actor.threadId).map ThreadRow.projection =
        some (statusName projected.status,
          writtenTurn projected (extractTurnId payload)
            (durableTurn store.toEventTables actor.threadId)) := by
  intro projected ingested
  rcases ingestUpstreamEvent_cases actor store epoch method payload now reads
    with ⟨-, hlost⟩ | ⟨stored, next, happend, hactor, -, hstore⟩
  · rw [hlost] at hstored
    simp at hstored
  · have hrow := appendEvent_projection happend
    have hthread : projected.threadId = actor.threadId :=
      projectEvent_threadId _ _ _ _
    refine ⟨?_, ?_, ?_, ?_⟩
    · rw [hactor, rememberEvent_threadId, hthread]
    · rw [hactor, rememberEvent_status]
    · rw [hactor, rememberEvent_activeTurnId]
    · rw [hstore]
      split
      · rw [persistSnapshot_projection]
        exact hrow
      · exact hrow

/-- The condition on an event and the state before it under which the row will
show the actor.  Each method decides by its own data. -/
def TurnSettled (actor : ThreadActor) (rowTurn : Option String)
    (method : String) (payload : Json) : Prop :=
  let nothingToBringIn := extractTurnId payload = none ∧ rowTurn = none
  match method with
  | "turn/started" => (extractTurnId payload).isSome ∨ rowTurn = none
  | "turn/completed" =>
    turnCompletedStatus payload ≠ .running ∨ actor.activeTurnId.isSome ∨
      nothingToBringIn
  | "thread/status/changed" =>
    actor.activeTurnId.isSome ∨
      ThreadActor.endsTurn
        ((normalizeThreadStatus payload).getD actor.status) ∨
      nothingToBringIn
  | _ =>
    actor.activeTurnId.isSome ∨ ThreadActor.endsTurn actor.status ∨
      nothingToBringIn

theorem endsTurn_turnCompletedStatus (payload : Json)
    (hdone : turnCompletedStatus payload ≠ .running) :
    ThreadActor.endsTurn (turnCompletedStatus payload) := by
  revert hdone
  unfold turnCompletedStatus
  simp only
  split <;> simp [ThreadActor.endsTurn]

theorem turnSettled_iff (rowTurn : Option String) (method : String)
    (payload : Json) :
    TurnSettled actor rowTurn method payload ↔
      let projected := actor.projectEvent method payload (extractTurnId payload)
      projected.activeTurnId.isSome ∨
        ThreadActor.endsTurn projected.status ∨
        extractTurnId payload = none ∧ rowTurn = none := by
  simp only [TurnSettled, ThreadActor.projectEvent,
    projectUsage_activeTurnId, projectUsage_status]
  split
  · cases hturn : extractTurnId payload <;>
      simp [ThreadActor.projectTurn, ThreadActor.endsTurn]
  · by_cases hdone : turnCompletedStatus payload = .running
    · simp [ThreadActor.projectTurn, hdone, ThreadActor.endsTurn]
    · simp [ThreadActor.projectTurn, hdone,
        endsTurn_turnCompletedStatus payload hdone]
  · exact Iff.rfl
  · rename_i hstarted hcompleted hchanged
    rw [projectTurn_of_other actor _ payload _ hstarted hcompleted
      hchanged]

instance (store : EventTables) (actor : ThreadActor) :
    Decidable (RowShows store actor) :=
  decidable_of_iff _ (rowShows_iff store actor).symm

/-- After a stored event the durable row shows the actor exactly when the
event's turn is settled, for every memory, store and payload before it. -/
theorem rowShows_ingestUpstreamEvent_iff (actor : ThreadActor)
    (store : EventStore) (epoch : Nat) (method : String) (payload : Json)
    (now : Nat) (reads : ThreadActor.SnapshotReads)
    (hstored : (actor.ingestUpstreamEvent store epoch method payload now
      reads).event.isSome) :
    let ingested :=
      actor.ingestUpstreamEvent store epoch method payload now reads
    RowShows ingested.store.toEventTables ingested.actor ↔
      TurnSettled actor (durableTurn store.toEventTables actor.threadId) method
        payload := by
  intro ingested
  obtain ⟨hthread, hstatus, hturn, hrow⟩ :=
    ingestUpstreamEvent_stored actor store epoch method payload now reads
      hstored
  rw [rowShows_iff, hthread, hstatus, hturn, hrow, turnSettled_iff,
    ← writtenTurn_eq_iff]
  simp

namespace LateItem

def turnPayload : Json := .obj [("turnId", .str "turn-1")]

def ingest (state : ThreadActor × EventStore) (method : String) :
    ThreadActor × EventStore :=
  let ingested := state.1.ingestUpstreamEvent state.2 1 method turnPayload 0
    (some ([], none))
  (ingested.actor, ingested.store)

/-- A turn runs and ends. -/
def finished : ThreadActor × EventStore :=
  ingest (ingest (.spawn "thread-1", .empty) "turn/started") "turn/completed"

/-- Then the upstream goes away. -/
def disconnected : ThreadActor × EventStore :=
  finished.1.upstreamDisconnected finished.2 1 1

/-- An item event of the finished turn arrives late, after the disconnect: it
is stored and makes the finished turn the durable active turn, while the actor
has none. -/
theorem lateItem_revives_turn :
    let before := disconnected
    let after := before.1.ingestUpstreamEvent before.2 1 "item/completed"
      turnPayload 0 (some ([], none))
    before.1.activeTurnId = none ∧
      durableTurn before.2.toEventTables "thread-1" = none ∧
      after.event.isSome ∧
      after.actor.activeTurnId = none ∧
      durableTurn after.store.toEventTables "thread-1" = some "turn-1" ∧
      ¬ RowShows after.store.toEventTables after.actor := by
  decide

/-- The same late event before the disconnect leaves row and memory agreed. -/
theorem lateItem_of_completed_rowShows :
    let after := finished.1.ingestUpstreamEvent finished.2 1 "item/completed"
      turnPayload 0 (some ([], none))
    RowShows after.store.toEventTables after.actor :=
  (rowShows_ingestUpstreamEvent_iff finished.1 finished.2 1 "item/completed"
    turnPayload 0 (some ([], none)) (by decide)).mpr
    (Or.inr (Or.inl (by decide)))

end LateItem

end Vellum.Broker
