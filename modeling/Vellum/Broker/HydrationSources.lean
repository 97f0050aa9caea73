/-
What hydration reads of a thread.  The row comes first, the newest snapshot
overrides it, and the turn boundaries of the log override both; so hydration
gives the row back exactly when neither of the other two contradicts it.  Each
write of an actor moves one of the three sources.
-/
import Vellum.Broker.DurableRow

namespace Vellum.Broker

open EventTables

/-- Status and active turn, as far as something on record says them. -/
structure Recorded where
  status : Option ThreadRuntimeStatus
  turn : Option (Option String)

namespace Recorded

def nothing : Recorded := ⟨none, none⟩

/-- The upper record where it says something, the lower one elsewhere. -/
def above (upper lower : Recorded) : Recorded :=
  ⟨upper.status.or lower.status, upper.turn.or lower.turn⟩

/-- The record does not contradict a status and a turn. -/
def Allows (recorded : Recorded) (status : ThreadRuntimeStatus)
    (turn : Option String) : Prop :=
  (∀ other ∈ recorded.status, other = status) ∧
    ∀ other ∈ recorded.turn, other = turn

instance (recorded : Recorded) (status : ThreadRuntimeStatus)
    (turn : Option String) : Decidable (recorded.Allows status turn) :=
  inferInstanceAs (Decidable (_ ∧ _))

/-- The record after a further event of the log.  A turn that completes "in
progress" says the status and leaves the turn. -/
def note (recorded : Recorded) (event : StoredEvent) : Recorded :=
  match event.method with
  | "turn/started" => ⟨some .running, some event.turnId⟩
  | "turn/completed" =>
    let status := turnCompletedStatus event.payload
    ⟨some status, if status = .running then recorded.turn else some none⟩
  | _ => recorded

def ofLog (events : List StoredEvent) : Recorded := events.foldl note nothing

def ofSnapshot (snapshot : ThreadSnapshot) : Recorded :=
  ⟨some snapshot.status,
    some (snapshot.activeTurn.map ActiveTurnView.turnId)⟩

def ofActor (actor : ThreadActor) : Recorded :=
  ⟨some actor.status, some actor.activeTurnId⟩

theorem note_of_other (recorded : Recorded) {event : StoredEvent}
    (hstarted : event.method ≠ "turn/started")
    (hcompleted : event.method ≠ "turn/completed") :
    recorded.note event = recorded := by
  unfold note
  split
  · exact absurd ‹_› hstarted
  · exact absurd ‹_› hcompleted
  · rfl

@[simp]
theorem ofLog_append (events : List StoredEvent) (event : StoredEvent) :
    ofLog (events ++ [event]) = (ofLog events).note event := by
  simp [ofLog]

@[simp]
theorem ofSnapshot_currentSnapshot (actor : ThreadActor) (latestSeq : Nat)
    (pending : List PendingApproval) (lease : Option WriterLeaseView) :
    ofSnapshot (actor.currentSnapshot latestSeq pending lease) =
      ofActor actor := by
  simp [ofSnapshot, ofActor, ThreadActor.currentSnapshot, Function.comp_def]

/-- Two answers a record does not contradict are one, as far as it says
something. -/
theorem Allows.iff {recorded : Recorded} {status : ThreadRuntimeStatus}
    {turn : Option String} (hallows : recorded.Allows status turn)
    (otherStatus : ThreadRuntimeStatus) (otherTurn : Option String) :
    recorded.Allows otherStatus otherTurn ↔
      (recorded.status.isSome → status = otherStatus) ∧
        (recorded.turn.isSome → turn = otherTurn) := by
  obtain ⟨recordedStatus, recordedTurn⟩ := recorded
  obtain ⟨hstatus, hturn⟩ := hallows
  refine and_congr ?_ ?_
  · cases recordedStatus with
    | none => simp
    | some said => simp [← hstatus said rfl]
  · cases recordedTurn with
    | none => simp
    | some said => simp [← hturn said rfl]

theorem allows_iff_getD (recorded : Recorded) (status : ThreadRuntimeStatus)
    (turn : Option String) :
    recorded.Allows status turn ↔
      recorded.status.getD status = status ∧ recorded.turn.getD turn = turn := by
  rw [Allows]
  cases recorded.status <;> cases recorded.turn <;> simp

end Recorded

/-- The log holds the start or the end of a turn. -/
def SaysStatus (events : List StoredEvent) : Prop :=
  ∃ event ∈ events, event.method = "turn/started" ∨
    event.method = "turn/completed"

/-- The log holds the start of a turn, or an end that is not "in progress". -/
def SaysTurn (events : List StoredEvent) : Prop :=
  ∃ event ∈ events, event.method = "turn/started" ∨
    event.method = "turn/completed" ∧
      turnCompletedStatus event.payload ≠ .running

instance (events : List StoredEvent) : Decidable (SaysStatus events) :=
  inferInstanceAs (Decidable (∃ event ∈ events, _))

instance (events : List StoredEvent) : Decidable (SaysTurn events) :=
  inferInstanceAs (Decidable (∃ event ∈ events, _))

theorem isSome_status_ofLog (events : List StoredEvent) :
    (Recorded.ofLog events).status.isSome ↔ SaysStatus events := by
  induction events using List.reverseRecOn with
  | nil => simp [Recorded.ofLog, Recorded.nothing, SaysStatus]
  | append_singleton events event ih =>
    have hconcat : SaysStatus (events ++ [event]) ↔ SaysStatus events ∨
        (event.method = "turn/started" ∨ event.method = "turn/completed") := by
      simp [SaysStatus, or_and_right, exists_or]
    rw [Recorded.ofLog_append, hconcat, ← ih]
    by_cases hstarted : event.method = "turn/started"
    · simp [Recorded.note, hstarted]
    · by_cases hcompleted : event.method = "turn/completed"
      · simp [Recorded.note, hcompleted]
      · simp [Recorded.note_of_other _ hstarted hcompleted, hstarted,
          hcompleted]

theorem isSome_turn_ofLog (events : List StoredEvent) :
    (Recorded.ofLog events).turn.isSome ↔ SaysTurn events := by
  induction events using List.reverseRecOn with
  | nil => simp [Recorded.ofLog, Recorded.nothing, SaysTurn]
  | append_singleton events event ih =>
    have hconcat : SaysTurn (events ++ [event]) ↔ SaysTurn events ∨
        (event.method = "turn/started" ∨ event.method = "turn/completed" ∧
          turnCompletedStatus event.payload ≠ .running) := by
      simp [SaysTurn, or_and_right, exists_or]
    rw [Recorded.ofLog_append, hconcat, ← ih]
    by_cases hstarted : event.method = "turn/started"
    · simp [Recorded.note, hstarted]
    · by_cases hcompleted : event.method = "turn/completed"
      · by_cases hrunning : turnCompletedStatus event.payload = .running
        · simp [Recorded.note, hcompleted, hrunning]
        · simp [Recorded.note, hcompleted, hrunning]
      · simp [Recorded.note_of_other _ hstarted hcompleted, hstarted,
          hcompleted]

/-- A memory that holds what is on record, and its own elsewhere, still does
after an event of the timeline. -/
theorem projectEvent_note {actor : ThreadActor} {recorded : Recorded}
    {status : ThreadRuntimeStatus} {turn : Option String} {event : StoredEvent}
    (htimeline : EventTables.isTimelineMethod event.method)
    (hstatus : actor.status = recorded.status.getD status)
    (hturn : actor.activeTurnId = recorded.turn.getD turn) :
    let projected :=
      actor.projectEvent event.method event.payload event.turnId
    projected.status = (recorded.note event).status.getD status ∧
      projected.activeTurnId = (recorded.note event).turn.getD turn := by
  simp only [ThreadActor.projectEvent, ThreadActor.projectUsage_status,
    ThreadActor.projectUsage_activeTurnId]
  by_cases hstarted : event.method = "turn/started"
  · simp [ThreadActor.projectTurn, Recorded.note, hstarted]
  · by_cases hcompleted : event.method = "turn/completed"
    · by_cases hrunning : turnCompletedStatus event.payload = .running
      · simp [ThreadActor.projectTurn, Recorded.note, hcompleted, hrunning,
          hturn]
      · simp [ThreadActor.projectTurn, Recorded.note, hcompleted, hrunning]
    · -- an item event moves neither status nor turn
      have hchanged : event.method ≠ "thread/status/changed" := by
        intro hmethod
        rw [hmethod] at htimeline
        exact absurd htimeline (by decide)
      rw [Recorded.note_of_other _ hstarted hcompleted,
        ThreadActor.projectTurn_of_other _ _ _ _ hstarted hcompleted hchanged]
      exact ⟨hstatus, hturn⟩

theorem note_of_not_timeline (recorded : Recorded) {event : StoredEvent}
    (htimeline : ¬ EventTables.isTimelineMethod event.method) :
    recorded.note event = recorded := by
  apply recorded.note_of_other
  · intro hmethod
    exact htimeline (by rw [hmethod]; decide)
  · intro hmethod
    exact htimeline (by rw [hmethod]; decide)

/-- Replaying the timeline over a memory leaves what the log records, and the
memory's own where the log says nothing. -/
theorem replayed_eq_ofLog (events : List StoredEvent) (start : ThreadActor) :
    let replayed := (events.filter fun event =>
        EventTables.isTimelineMethod event.method).foldl
      (fun actor event => (actor.projectEvent event.method event.payload
        event.turnId).rememberEvent event.intoProtocol) start
    replayed.status = (Recorded.ofLog events).status.getD start.status ∧
      replayed.activeTurnId =
        (Recorded.ofLog events).turn.getD start.activeTurnId ∧
      replayed.loaded = start.loaded := by
  induction events using List.reverseRecOn with
  | nil => exact ⟨rfl, rfl, rfl⟩
  | append_singleton events event ih =>
    obtain ⟨hstatus, hturn, hloaded⟩ := ih
    rw [Recorded.ofLog_append, List.filter_append]
    by_cases htimeline : EventTables.isTimelineMethod event.method
    · have hstep := projectEvent_note htimeline hstatus hturn
      simpa [htimeline] using And.intro hstep.1 (And.intro hstep.2 hloaded)
    · rw [note_of_not_timeline _ htimeline]
      simpa [htimeline] using And.intro hstatus (And.intro hturn hloaded)

/-- The three sources of hydration. -/
structure Sources where
  row : Option (String × Option String)
  snapshot : Recorded
  log : Recorded

def sources (store : EventTables) (threadId : String) : Sources where
  row := (store.threads.find? threadId).map ThreadRow.projection
  snapshot := (store.latestSnapshot threadId).elim .nothing .ofSnapshot
  log := .ofLog (store.threadEvents threadId)

/-- Neither snapshot nor log contradicts the row. -/
def Sources.Agree (sources : Sources) : Prop :=
  ∃ row, sources.row = some row ∧
    (sources.log.above sources.snapshot).Allows (parseStatus row.1) row.2

theorem Sources.agree_iff {sources : Sources} {row : String × Option String}
    (hrow : sources.row = some row) :
    sources.Agree ↔
      (sources.log.above sources.snapshot).Allows (parseStatus row.1) row.2 := by
  simp [Agree, hrow]

/-- A fresh actor that hydrates from the store has the status and the active
turn of the thread's row. -/
def HydratesRow (store : EventTables) (threadId : String) : Prop :=
  ∃ row, store.threads.find? threadId = some row ∧
    ((ThreadActor.spawn threadId).hydrateFromStore store).status =
      parseStatus row.latestStatus ∧
    ((ThreadActor.spawn threadId).hydrateFromStore store).activeTurnId =
      row.activeTurnId

instance (store : EventTables) (threadId : String) :
    Decidable (HydratesRow store threadId) :=
  inferInstanceAs (Decidable (∃ row ∈ store.threads.find? threadId, _ ∧ _))

variable (actor : ThreadActor) (store : EventStore) (epoch : Option Nat)
  (transportEpoch : Nat)

/-- What hydration makes of a memory whose thread has a row. -/
theorem hydrateFromStore_of_row {row : ThreadRow}
    (hrow : store.threads.find? actor.threadId = some row) :
    let read := sources store.toEventTables actor.threadId
    let hydrated := actor.hydrateFromStore store.toEventTables
    hydrated.status =
        (read.log.above read.snapshot).status.getD
          (parseStatus row.latestStatus) ∧
      hydrated.activeTurnId =
        (read.log.above read.snapshot).turn.getD row.activeTurnId ∧
      hydrated.loaded = (store.latestSnapshot actor.threadId).elim row.loaded
        ThreadSnapshot.loaded := by
  have hreplay := replayed_eq_ofLog (store.threadEvents actor.threadId)
  rw [← store.dense.sessionTimelineEvents_eq actor.threadId] at hreplay
  unfold sources ThreadActor.hydrateFromStore
  cases hsnapshot : store.latestSnapshot actor.threadId with
  | none =>
    simp [EventTables.threadProjection, hrow, hsnapshot, hreplay,
      Recorded.above, Recorded.nothing]
  | some snapshot =>
    simp [EventTables.threadProjection, hrow, hsnapshot, hreplay,
      Recorded.above, Recorded.ofSnapshot]

theorem hydratesRow_iff (threadId : String) :
    HydratesRow store.toEventTables threadId ↔
      (sources store.toEventTables threadId).Agree := by
  unfold HydratesRow Sources.Agree
  cases hrow : store.threads.find? threadId with
  | none => simp [sources, hrow]
  | some row =>
    have hhydrated := hydrateFromStore_of_row (.spawn threadId) store hrow
    simp only [ThreadActor.spawn] at hhydrated
    simp [ThreadActor.spawn, hhydrated, Recorded.allows_iff_getD, sources,
      hrow, ThreadRow.projection]

/-- No snapshot of the thread is ahead of its log, so one taken now is the
newest. -/
def SnapshotsBehind (store : EventTables) (threadId : String) : Prop :=
  ∀ snapshot ∈ store.snapshots.rows, snapshot.threadId = threadId →
    snapshot.snapshotSeq ≤ (store.threadEvents threadId).length

/-- Writing the projection moves the row, unless the epoch is not known. -/
theorem sources_persistProjection
    (hrow : (store.threads.find? actor.threadId).isSome) :
    sources (actor.persistProjection store epoch transportEpoch).toEventTables
        actor.threadId =
      { sources store.toEventTables actor.threadId with
        row :=
          if store.epochKnown
              (ThreadActor.projectionEpoch epoch transportEpoch) then
            some (statusName actor.status, actor.activeTurnId)
          else (sources store.toEventTables actor.threadId).row } := by
  obtain ⟨row, hrow⟩ := Option.isSome_iff_exists.mp hrow
  have hensured := store.find?_ensureThreadOn actor.threadId none actor.status
    actor.threadId
  rw [if_pos rfl, hrow] at hensured
  simp only [ThreadActor.persistProjection, EventStore.updateThreadProjection,
    EventTables.updateThreadProjection]
  by_cases hknown : store.epochKnown
    (ThreadActor.projectionEpoch epoch transportEpoch)
  · have hensuredKnown : (store.ensureThreadOn actor.threadId none
        actor.status).epochKnown
          (ThreadActor.projectionEpoch epoch transportEpoch) := hknown
    have hprojection : ∀ old : ThreadRow,
        (old.project ⟨actor.status, actor.loaded, some actor.activeTurnId,
          ThreadActor.projectionEpoch epoch transportEpoch⟩).projection =
            (statusName actor.status, actor.activeTurnId) := by
      intro old
      cases hturn : actor.activeTurnId <;>
        simp [ThreadRow.project, ThreadRow.projection]
    rw [if_pos hensuredKnown, if_pos hknown, sources,
      find?_updateThread, hensured, if_pos rfl, Option.map_some,
      Option.map_some, hprojection]
    rfl
  · have hensuredUnknown : ¬ (store.ensureThreadOn actor.threadId none
        actor.status).epochKnown
          (ThreadActor.projectionEpoch epoch transportEpoch) := hknown
    rw [if_neg hensuredUnknown, if_neg hknown, sources, hensured, sources, hrow]
    rfl

theorem rowed_persistProjection :
    ((actor.persistProjection store epoch transportEpoch).threads.find?
      actor.threadId).isSome := by
  simp only [ThreadActor.persistProjection, EventStore.updateThreadProjection,
    EventTables.updateThreadProjection]
  split
  · rw [find?_updateThread, find?_ensureThreadOn]
    simp
  · rw [find?_ensureThreadOn]
    simp

theorem snapshotsBehind_persistProjection {actor : ThreadActor}
    {store : EventStore} {threadId : String}
    (hbehind : SnapshotsBehind store.toEventTables threadId) :
    SnapshotsBehind
      (actor.persistProjection store epoch transportEpoch).toEventTables
      threadId := by
  simp only [ThreadActor.persistProjection, EventStore.updateThreadProjection,
    EventTables.updateThreadProjection]
  split
  · exact hbehind
  · exact hbehind

/-- A snapshot that can be read and saved becomes the newest one. -/
theorem persistSnapshot_some (pending : List PendingApproval)
    (lease : Option WriterLeaseView)
    (hrow : (store.threads.find? actor.threadId).isSome) :
    (actor.persistSnapshot store (some (pending, lease))).threadEvents =
        store.threadEvents ∧
      (actor.persistSnapshot store (some (pending, lease))).snapshots =
        store.snapshots.put (actor.currentSnapshot
          (store.latestSeq actor.threadId) pending lease) := by
  have htables : store.toEventTables.saveSnapshot (actor.currentSnapshot
      (store.latestSeq actor.threadId) pending lease) =
        .ok { store.updateThread actor.threadId
            (ThreadRow.noteSnapshot (store.latestSeq actor.threadId))
            (ThreadRow.noteSnapshot_threadId _) with
          snapshots := store.snapshots.put (actor.currentSnapshot
            (store.latestSeq actor.threadId) pending lease) } :=
    if_pos hrow
  simp only [ThreadActor.persistSnapshot]
  cases hsave : store.saveSnapshot (actor.currentSnapshot
      (store.latestSeq actor.threadId) pending lease) with
  | error error =>
    unfold EventStore.saveSnapshot at hsave
    split at hsave
    · rename_i herror
      rw [herror] at htables
      cases htables
    · cases hsave
  | ok saved =>
    rw [EventStore.saveSnapshot_ok_iff, htables, Except.ok.injEq] at hsave
    change saved.threadEvents = _ ∧ saved.snapshots = _
    rw [← hsave]
    exact ⟨rfl, rfl⟩

theorem sources_persistSnapshot (reads : ThreadActor.SnapshotReads)
    (hrow : (store.threads.find? actor.threadId).isSome)
    (hbehind : SnapshotsBehind store.toEventTables actor.threadId) :
    sources (actor.persistSnapshot store reads).toEventTables actor.threadId =
        { sources store.toEventTables actor.threadId with
          snapshot :=
            if reads.isSome then .ofActor actor
            else (sources store.toEventTables actor.threadId).snapshot } ∧
      SnapshotsBehind (actor.persistSnapshot store reads).toEventTables
        actor.threadId := by
  cases reads with
  | none => exact ⟨rfl, hbehind⟩
  | some pair =>
    obtain ⟨pending, lease⟩ := pair
    obtain ⟨hevents, hsnapshots⟩ :=
      persistSnapshot_some actor store pending lease hrow
    have hprojection := persistSnapshot_projection actor store
      (some (pending, lease)) actor.threadId
    have hseq := store.dense.latestSeq_eq actor.threadId
    have hbehindNext : SnapshotsBehind
        (actor.persistSnapshot store (some (pending, lease))).toEventTables
        actor.threadId := by
      intro snapshot hsnapshot hthread
      rw [hsnapshots, KeyedTable.mem_put_iff] at hsnapshot
      rw [hevents]
      rcases hsnapshot with rfl | ⟨hold, -⟩
      · exact Nat.le_of_eq hseq
      · exact hbehind snapshot hold hthread
    have hnewest : (actor.persistSnapshot store
        (some (pending, lease))).latestSnapshot actor.threadId =
          some (actor.currentSnapshot (store.latestSeq actor.threadId)
            pending lease) := by
      rw [latestSnapshot_eq_some_iff]
      refine ⟨⟨?_, rfl⟩, ?_⟩
      · rw [hsnapshots, KeyedTable.mem_put_iff]
        exact Or.inl rfl
      · intro snapshot hsnapshot hthread
        have hle := hbehindNext snapshot hsnapshot hthread
        rw [hevents, ← hseq] at hle
        exact hle
    refine ⟨?_, hbehindNext⟩
    simp [sources, hprojection, hevents, hnewest]

/-- A stored event is noted in the log and written to the row. -/
theorem sources_appendEvent {store next : EventTables}
    {projected : ThreadActor} {epoch : Nat} {threadId method : String}
    {payload : Json} {turnId itemId : Option String} {now : Nat}
    {stored : StoredEvent}
    (happend : store.appendEvent threadId epoch method payload turnId itemId now
      (projected.eventProjection epoch) = .ok (stored, next)) :
    sources next threadId =
        { sources store threadId with
          row := some (statusName projected.status,
            writtenTurn projected turnId (durableTurn store threadId))
          log := (sources store threadId).log.note stored } ∧
      (SnapshotsBehind store threadId → SnapshotsBehind next threadId) := by
  have hprojection := appendEvent_projection happend
  obtain ⟨-, hevent, hevents, hsnapshots, -⟩ :=
    appendEvent_ok happend
  have hlog : next.threadEvents threadId =
      store.threadEvents threadId ++ [stored] := by
    rw [threadEvents_append hevents, hevent, if_pos rfl]
  refine ⟨?_, ?_⟩
  · simp [sources, hprojection, hlog, EventTables.latestSnapshot, hsnapshots]
  · intro hbehind snapshot hsnapshot hthread
    rw [hsnapshots] at hsnapshot
    have hle := hbehind snapshot hsnapshot hthread
    rw [hlog, List.length_append]
    omega

end Vellum.Broker
