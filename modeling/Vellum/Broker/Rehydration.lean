/-
Restarting on what was persisted.  A restarted actor gets the row's status and
turn back exactly when neither the newest snapshot nor the last turn boundary
of the log contradicts the row.  Only the turn boundaries write row and log
together; every other write must leave the row as it is, as far as log or
snapshot say what it shows.
-/
import Vellum.Broker.ActorLoop
import Vellum.Broker.HydrationSources

namespace Vellum.Broker

open Option EventTables

/-- The message with the writes that come before a snapshot: the handler ends
there if what goes into the snapshot cannot be read. -/
def ThreadActorMessage.unsaved : ThreadActorMessage → ThreadActorMessage
  | .upstreamEvent epoch method payload now _ =>
    .upstreamEvent epoch method payload now none
  | .upstreamServerRequest epoch transportEpoch method registered _ =>
    .upstreamServerRequest epoch transportEpoch method registered none
  | .createSnapshot _ => .createSnapshot none
  | message => message

/-- What goes into the snapshot that a message still owes. -/
def Handled.dueSnapshot (handled : Handled) :
    ThreadActorMessage → ThreadActor.SnapshotReads
  | .upstreamEvent _ _ _ _ reads =>
    match handled.broadcast with
    | some (.threadEvent event) =>
      if ThreadActor.snapshotDue handled.actor.status event.seq then reads
      else none
    | _ => none
  | .upstreamServerRequest _ _ _ _ reads =>
    if handled.broadcast.isSome then reads else none
  | .createSnapshot reads => reads
  | _ => none

/-- A message is its first writes, and then the snapshot it owes. -/
theorem ThreadActor.handle_unsaved (digest : Json → String)
    (actor : ThreadActor) (store : EventStore) (message : ThreadActorMessage) :
    let begun := actor.handle digest store message.unsaved
    let saved :=
      begun.actor.persistSnapshot begun.store (begun.dueSnapshot message)
    actor.handle digest store message = { begun with store := saved } := by
  cases message with
  | upstreamEvent epoch method payload now reads =>
    simp only [ThreadActorMessage.unsaved, handle, ingestUpstreamEvent]
    split
    · rfl
    · simp only [Handled.dueSnapshot, Option.map_some]
      split <;> rfl
  | upstreamServerRequest epoch transportEpoch method registered reads =>
    simp only [ThreadActorMessage.unsaved, handle, ingestServerRequest]
    split <;> rfl
  | createSnapshot reads => rfl
  | attachClient | detachClient | clientCommand | ack | upstreamDisconnected
  | recoverOnStartup | recoverAfterReconnect => rfl

/-- An actor, the store it persists to, and the snapshot that the message it is
at still owes. -/
structure ActorState where
  actor : ThreadActor
  store : EventStore
  due : ThreadActor.SnapshotReads

namespace ActorState

/-- The first actor of a thread: `run` ensures the row. -/
def start (threadId : String) : ActorState :=
  ⟨.spawn threadId, EventStore.empty.ensureThread threadId none .idle, none⟩

section

variable (digest : Json → String) (state : ActorState)

/-- What hydration would read. -/
def onRecord : Sources :=
  sources state.store.toEventTables state.actor.threadId

/-- A write that leaves a thread's row, events and snapshots as they are. -/
def Untouched (store next : EventTables) (threadId : String) : Prop :=
  (next.threads.find? threadId).map ThreadRow.projection =
      (store.threads.find? threadId).map ThreadRow.projection ∧
    next.threadEvents threadId = store.threadEvents threadId ∧
    (next.snapshots.rows.filter fun snapshot =>
        snapshot.threadId = threadId) =
      store.snapshots.rows.filter fun snapshot => snapshot.threadId = threadId

instance (store next : EventTables) (threadId : String) :
    Decidable (Untouched store next threadId) :=
  inferInstanceAs (Decidable (_ ∧ _ ∧ _))

/-- The actor handles a message up to its snapshot, saves that, the broker
restarts, or other threads write to the store. -/
inductive Action where
  | message (message : ThreadActorMessage)
  | snapshot
  | restart
  | elsewhere (store : EventStore)

def step : Action → Option ActorState
  | .message message =>
    match state.due with
    | some _ => none
    | none =>
      let handled := state.actor.handle digest state.store message.unsaved
      some ⟨handled.actor, handled.store, handled.dueSnapshot message⟩
  | .snapshot =>
    state.due.map fun reads =>
      ⟨state.actor, state.actor.persistSnapshot state.store (some reads), none⟩
  | .restart =>
    let threadId := state.actor.threadId
    some ⟨.spawn threadId, state.store.ensureThread threadId none .idle, none⟩
  | .elsewhere store =>
    if Untouched state.store.toEventTables store.toEventTables
        state.actor.threadId then
      some ⟨state.actor, store, state.due⟩
    else none

/-! What is on record of the thread before a step. -/

/-- The status and the turn in the row. -/
def row (state : ActorState) : ThreadRuntimeStatus × Option String :=
  (state.store.threads.find? state.actor.threadId).elim (.idle, none)
    fun row => (parseStatus row.latestStatus, row.activeTurnId)

def log : List StoredEvent :=
  state.store.threadEvents state.actor.threadId

def latestSnapshot (state : ActorState) : Option ThreadSnapshot :=
  state.store.latestSnapshot state.actor.threadId

/-- The log or a snapshot says what the status is. -/
def StatusSaid : Prop :=
  SaysStatus state.log ∨ state.latestSnapshot.isSome

/-- The log or a snapshot says what the turn is. -/
def TurnSaid : Prop :=
  SaysTurn state.log ∨ state.latestSnapshot.isSome

instance (state : ActorState) : Decidable state.StatusSaid :=
  inferInstanceAs (Decidable (_ ∨ _))

instance (state : ActorState) : Decidable state.TurnSaid :=
  inferInstanceAs (Decidable (_ ∨ _))

/-- A status and a turn are those of the row, as far as they are said. -/
def Keeps (status : ThreadRuntimeStatus) (turn : Option String) : Prop :=
  (state.StatusSaid → state.row.1 = status) ∧
    (state.TurnSaid → state.row.2 = turn)

/-! The condition on each kind of message. -/

/-- A projection with an unknown epoch does not reach the row. -/
def ProjectionSafe (epoch : Option Nat) (transportEpoch : Nat)
    (status : ThreadRuntimeStatus) (turn : Option String) : Prop :=
  state.store.epochKnown
      (ThreadActor.projectionEpoch epoch transportEpoch) = true →
    state.Keeps status turn

/-- The row has the memory's turn; or memory has none, and none is in the row
when it ends the turn, and else none but the row's is brought in. -/
def TurnStays (memory : ThreadActor) (turnId rowTurn : Option String) : Prop :=
  match memory.activeTurnId with
  | some turn => rowTurn = some turn
  | none =>
    if ThreadActor.endsTurn memory.status then rowTurn = none
    else ∀ turn ∈ turnId, rowTurn = some turn

instance (memory : ThreadActor) (turnId rowTurn : Option String) :
    Decidable (TurnStays memory turnId rowTurn) := by
  unfold TurnStays
  cases memory.activeTurnId <;> infer_instance

def KeepsTurn (status : ThreadRuntimeStatus) (turnId : Option String) : Prop :=
  state.TurnSaid →
    TurnStays { state.actor with status := status } turnId state.row.2

/-- An event that is no turn boundary. -/
def EventKeeps (status : ThreadRuntimeStatus) (turnId : Option String) : Prop :=
  (state.StatusSaid → state.row.1 = status) ∧ state.KeepsTurn status turnId

instance (state : ActorState) (status : ThreadRuntimeStatus)
    (turnId : Option String) : Decidable (state.EventKeeps status turnId) :=
  inferInstanceAs (Decidable ((_ → _) ∧ (_ → _)))

/-- A turn that starts brings its id or finds no turn in the row; one that ends
is always safe. -/
def EventSafe (method : String) (payload : Json) : Prop :=
  let turnId := extractTurnId payload
  match method with
  | "turn/started" => turnId.isSome ∨ state.row.2 = none
  | "turn/completed" =>
    turnCompletedStatus payload = .running → state.KeepsTurn .running turnId
  | "thread/status/changed" =>
    state.EventKeeps ((normalizeThreadStatus payload).getD state.actor.status)
      turnId
  | _ => state.EventKeeps state.actor.status turnId

def CommandSafe (command : ThreadCommand) (answer : Except AppServerError Json)
    (transportEpoch : Nat) : Prop :=
  match command, answer with
  | .turnStart .., .ok value =>
    state.ProjectionSafe (some transportEpoch) transportEpoch .running
      ((extractTurnId value).or state.actor.activeTurnId)
  | .turnInterrupt _, .ok _ =>
    state.ProjectionSafe none transportEpoch .interrupted
      state.actor.activeTurnId
  | _, _ => True

/-- The status an answer about the thread brings, if any. -/
def answeredStatus (value : Json) : Option ThreadRuntimeStatus :=
  normalizeThreadStatus ((value.get "thread").getD value)

def answeredTurn (value : Json) : Option String :=
  ((value.pointer ["thread", "activeTurnId"]).bind Json.asStr).or
    (extractTurnId value)

/-- What a thread that is recovered is answered leaves the row as it is. -/
def RecoverySafe (memory : ThreadActor) (forceResume : Bool)
    (resume read : Except AppServerError Json) (transportEpoch : Nat) : Prop :=
  match memory.shouldResume forceResume, resume, read with
  | true, .ok value, _ =>
    state.ProjectionSafe none transportEpoch
      ((answeredStatus value).getD memory.status)
      ((answeredTurn value).or memory.activeTurnId)
  | _, _, .ok value =>
    state.ProjectionSafe none transportEpoch
      ((answeredStatus value).getD memory.status) memory.activeTurnId
  | true, .error _, .error _ =>
    state.ProjectionSafe none transportEpoch .indeterminate
      memory.activeTurnId
  | false, _, .error _ => True

/-- The memory that shows the row; whether the thread is loaded is in the
newest snapshot, or else in the row. -/
def recordedMemory : ThreadActor :=
  { state.actor with
    status := state.row.1
    activeTurnId := state.row.2
    loaded := state.latestSnapshot.elim
      ((state.store.threads.find? state.actor.threadId).elim false
        ThreadRow.loaded) ThreadSnapshot.loaded }

/-- The condition on a message and the state before it. -/
def MessageSafe : ThreadActorMessage → Prop
  | .clientCommand deviceId request lookup outside =>
    state.actor.answeredEarly digest deviceId request lookup = none →
      ThreadActor.writerRefused deviceId request outside.lease = false →
        state.CommandSafe request.command outside.answer outside.epoch
  | .upstreamEvent _ method payload _ _ =>
    state.store.events.length + 1 < 2 ^ 63 → state.EventSafe method payload
  | .upstreamServerRequest epoch transportEpoch method registered _ =>
    registered.isSome = true → ThreadActor.requestsApproval method = true →
      state.ProjectionSafe (some epoch) transportEpoch .waitingForApproval
        state.actor.activeTurnId
  | .upstreamDisconnected epoch transportEpoch =>
    state.ProjectionSafe (some epoch) transportEpoch .indeterminate
      state.actor.activeTurnId
  | .recoverOnStartup resume read transportEpoch =>
    state.RecoverySafe state.recordedMemory false resume read transportEpoch
  | .recoverAfterReconnect resume read transportEpoch =>
    state.RecoverySafe state.actor true resume read transportEpoch
  | .createSnapshot _ | .attachClient .. | .detachClient .. | .ack .. => True

/-- A snapshot is of a memory that shows the row, as far as the log does not
say what it shows. -/
def SnapshotSafe : Prop :=
  (¬ SaysStatus state.log → state.row.1 = state.actor.status) ∧
    (¬ SaysTurn state.log → state.row.2 = state.actor.activeTurnId)

def RestartSafe : Action → Prop
  | .message message => state.MessageSafe digest message
  | .snapshot => state.SnapshotSafe
  | .restart | .elsewhere _ => True

end

variable (actor : ThreadActor) {state : ActorState} (method : String)
  (payload : Json)

theorem eventSafe_of_keeps {method : String} {payload : Json}
    (hstarted : method ≠ "turn/started")
    (hcompleted : method ≠ "turn/completed")
    (hchanged : method ≠ "thread/status/changed")
    (hkeeps : state.EventKeeps state.actor.status (extractTurnId payload)) :
    state.EventSafe method payload := by
  unfold EventSafe
  split
  · exact absurd rfl hstarted
  · exact absurd rfl hcompleted
  · exact absurd rfl hchanged
  · exact hkeeps

/-! What is on record, and whether hydration gives it back. -/

theorem durableTurn_eq (state : ActorState) :
    durableTurn state.store.toEventTables state.actor.threadId =
      state.row.2 := by
  rw [durableTurn, row]
  cases state.store.threads.find? state.actor.threadId <;> rfl

theorem isSome_snapshot (state : ActorState) :
    (state.onRecord.snapshot.status.isSome ↔ state.latestSnapshot.isSome) ∧
      (state.onRecord.snapshot.turn.isSome ↔
        state.latestSnapshot.isSome) := by
  rw [onRecord, sources, latestSnapshot]
  cases state.store.latestSnapshot state.actor.threadId <;>
    simp [Recorded.nothing, Recorded.ofSnapshot]

theorem statusSaid_iff (state : ActorState) :
    (state.onRecord.log.above state.onRecord.snapshot).status.isSome ↔
      state.StatusSaid := by
  rw [StatusSaid, ← (isSome_snapshot state).1, log, ← isSome_status_ofLog]
  simp [Recorded.above, onRecord, sources]

theorem turnSaid_iff (state : ActorState) :
    (state.onRecord.log.above state.onRecord.snapshot).turn.isSome ↔
      state.TurnSaid := by
  rw [TurnSaid, ← (isSome_snapshot state).2, log, ← isSome_turn_ofLog]
  simp [Recorded.above, onRecord, sources]

section Agreed

variable (hagree : state.onRecord.Agree)

include hagree

theorem rowed_of_agree :
    (state.store.threads.find? state.actor.threadId).isSome := by
  obtain ⟨row, hrow, -⟩ := hagree
  obtain ⟨stored, hstored, -⟩ := map_eq_some_iff.mp hrow
  exact isSome_of_mem hstored

theorem agree_iff_allows_row {read : Sources}
    (hrow : read.row = state.onRecord.row) :
    read.Agree ↔
      (read.log.above read.snapshot).Allows state.row.1 state.row.2 := by
  obtain ⟨recorded, hrecorded, -⟩ := hagree
  rw [Sources.agree_iff (hrow.trans hrecorded)]
  obtain ⟨stored, hstored, rfl⟩ := map_eq_some_iff.mp hrecorded
  rw [row, hstored]
  rfl

theorem allows_row :
    (state.onRecord.log.above state.onRecord.snapshot).Allows state.row.1
      state.row.2 :=
  (agree_iff_allows_row hagree rfl).mp hagree

theorem keeps_iff (status : ThreadRuntimeStatus) (turn : Option String) :
    (state.onRecord.log.above state.onRecord.snapshot).Allows status turn ↔
      state.Keeps status turn := by
  rw [(allows_row hagree).iff, statusSaid_iff, turnSaid_iff, Keeps]

/-- Hydration gives the row back. -/
theorem hydrated_eq :
    let hydrated := state.actor.hydrateFromStore state.store.toEventTables
    hydrated.status = state.recordedMemory.status ∧
      hydrated.activeTurnId = state.recordedMemory.activeTurnId ∧
      hydrated.loaded = state.recordedMemory.loaded := by
  obtain ⟨stored, hstored⟩ :=
    isSome_iff_exists.mp (rowed_of_agree hagree)
  obtain ⟨hstatus, hturn⟩ :=
    (Recorded.allows_iff_getD _ _ _).mp (allows_row hagree)
  have hhydrated := hydrateFromStore_of_row state.actor state.store hstored
  have hrow : state.row =
      (parseStatus stored.latestStatus, stored.activeTurnId) := by
    rw [row, hstored]
    rfl
  rw [hrow] at hstatus hturn
  refine ⟨?_, ?_, ?_⟩
  · exact hhydrated.1.trans (hstatus.trans (by rw [recordedMemory, hrow]))
  · exact hhydrated.2.1.trans (hturn.trans (by rw [recordedMemory, hrow]))
  · rw [hhydrated.2.2, recordedMemory, hstored]
    rfl

theorem agree_persistProjection_iff (memory : ThreadActor)
    (hthread : memory.threadId = state.actor.threadId) (epoch : Option Nat)
    (transportEpoch : Nat) :
    (sources (memory.persistProjection state.store epoch
        transportEpoch).toEventTables state.actor.threadId).Agree ↔
      state.ProjectionSafe epoch transportEpoch memory.status
        memory.activeTurnId := by
  have hrow := rowed_of_agree hagree
  have hkeeps := keeps_iff hagree memory.status memory.activeTurnId
  rw [← hthread] at hrow ⊢
  rw [sources_persistProjection memory state.store epoch transportEpoch hrow,
    hthread]
  by_cases hknown : state.store.epochKnown
      (ThreadActor.projectionEpoch epoch transportEpoch)
  · rw [if_pos hknown, Sources.agree_iff rfl, parseStatus_statusName]
    simpa [ProjectionSafe, hknown, onRecord] using hkeeps
  · rw [if_neg hknown]
    exact iff_of_true hagree fun hholds => absurd hholds hknown

end Agreed

theorem sources_ingestUpstreamEvent (state : ActorState) (epoch : Nat)
    (method : String) (payload : Json) (now : Nat)
    (hroom : state.store.events.length + 1 < 2 ^ 63) :
    let projected :=
      state.actor.projectEvent method payload (extractTurnId payload)
    let next := (state.actor.ingestUpstreamEvent state.store epoch method
      payload now none).store
    ∃ stored : StoredEvent, stored.method = method ∧ stored.payload = payload ∧
      stored.turnId = extractTurnId payload ∧
      sources next.toEventTables state.actor.threadId =
        { state.onRecord with
          row := some (statusName projected.status,
            writtenTurn projected (extractTurnId payload) state.row.2)
          log := state.onRecord.log.note stored } ∧
      (SnapshotsBehind state.store.toEventTables state.actor.threadId →
        SnapshotsBehind next.toEventTables state.actor.threadId) := by
  intro projected next
  rcases ingestUpstreamEvent_cases state.actor state.store epoch method payload
    now none with ⟨hfull, -⟩ | ⟨stored, after, happend, -, -, hstore⟩
  · exact absurd hroom (Nat.not_lt.mpr hfull)
  · have hevent := (appendEvent_ok happend).2.1
    obtain ⟨happended, hbehind⟩ := sources_appendEvent happend
    have hnext : next = after := by
      rw [← ite_self (c := ThreadActor.snapshotDue projected.status
        stored.threadSeq) after]
      exact hstore
    rw [hnext, ← durableTurn_eq]
    exact ⟨stored, by rw [hevent], by rw [hevent], by rw [hevent], happended,
      hbehind⟩

/-! What a message leaves on record. -/

theorem writtenTurn_stays_iff (memory : ThreadActor)
    (turnId rowTurn : Option String) :
    rowTurn = writtenTurn memory turnId rowTurn ↔
      TurnStays memory turnId rowTurn := by
  unfold writtenTurn TurnStays
  cases memory.activeTurnId with
  | some turn => simp
  | none =>
    by_cases hends : ThreadActor.endsTurn memory.status
    · simp [hends]
    · cases turnId <;> simp [hends]

@[simp]
theorem turnStays_projectUsage (turnId rowTurn : Option String) :
    TurnStays (actor.projectUsage method payload) turnId rowTurn ↔
      TurnStays actor turnId rowTurn := by
  simp [TurnStays]

section Agreed

variable (hagree : state.onRecord.Agree)

include hagree

/-- What an event that is no turn boundary leaves in the row. -/
theorem allows_written_iff (status : ThreadRuntimeStatus)
    (turnId : Option String) :
    let projected := { state.actor with status := status }.projectUsage method
      payload
    (state.onRecord.log.above state.onRecord.snapshot).Allows projected.status
        (writtenTurn projected turnId state.row.2) ↔
      state.EventKeeps status turnId := by
  intro projected
  rw [(allows_row hagree).iff, statusSaid_iff, turnSaid_iff,
    writtenTurn_stays_iff, EventKeeps, KeepsTurn]
  simp [projected]

/-- A turn that completes "in progress" says its status, and no turn. -/
theorem allows_running_iff (turn : Option String) :
    ((⟨some .running, state.onRecord.log.turn⟩ : Recorded).above
        state.onRecord.snapshot).Allows .running turn ↔
      (state.TurnSaid → state.row.2 = turn) := by
  have hrow := (allows_row hagree).iff state.row.1 turn
  rw [turnSaid_iff] at hrow
  simpa [Recorded.Allows, Recorded.above] using
    (and_iff_right (allows_row hagree).1).symm.trans hrow

theorem agree_ingestUpstreamEvent_iff (epoch : Nat) (method : String)
    (payload : Json) (now : Nat)
    (hroom : state.store.events.length + 1 < 2 ^ 63) :
    (sources (state.actor.ingestUpstreamEvent state.store epoch method payload
        now none).store.toEventTables state.actor.threadId).Agree ↔
      state.EventSafe method payload := by
  obtain ⟨stored, hmethod, hpayload, hturn, hsources, -⟩ :=
    sources_ingestUpstreamEvent state epoch method payload now hroom
  rw [hsources, Sources.agree_iff rfl]
  simp only [parseStatus_statusName]
  unfold EventSafe
  split
  · -- the log takes status and turn from the event
    rw [Recorded.note, hmethod]
    cases hid : extractTurnId payload <;>
      simp [Recorded.above, Recorded.Allows, ThreadActor.projectEvent,
        ThreadActor.projectTurn, writtenTurn, ThreadActor.endsTurn, hturn, hid,
        eq_comm]
  · by_cases hdone : turnCompletedStatus payload = .running
    · have hnote : state.onRecord.log.note stored =
          ⟨some .running, state.onRecord.log.turn⟩ := by
        rw [Recorded.note, hmethod]
        simp [hpayload, hdone]
      have hprojected : state.actor.projectTurn "turn/completed" payload
          (extractTurnId payload) = { state.actor with status := .running } := by
        simp [ThreadActor.projectTurn, hdone]
      rw [hnote, ThreadActor.projectEvent, hprojected,
        ThreadActor.projectUsage_status]
      refine (allows_running_iff hagree _).trans ?_
      rw [writtenTurn_stays_iff, turnStays_projectUsage]
      simp [KeepsTurn, hdone]
    · have hends := endsTurn_turnCompletedStatus payload hdone
      rw [Recorded.note, hmethod]
      simp [Recorded.above, Recorded.Allows, ThreadActor.projectEvent,
        ThreadActor.projectTurn, writtenTurn, hpayload, hdone, hends]
  · have hnote : state.onRecord.log.note stored = state.onRecord.log :=
      Recorded.note_of_other _ (by simp [hmethod]) (by simp [hmethod])
    rw [hnote, ThreadActor.projectEvent]
    exact allows_written_iff _ _ hagree _ _
  · rename_i hstarted hcompleted hchanged
    have hnote : state.onRecord.log.note stored = state.onRecord.log :=
      Recorded.note_of_other _ (by rwa [hmethod]) (by rwa [hmethod])
    rw [hnote, ThreadActor.projectEvent, ThreadActor.projectTurn_of_other _ _ _
      _ hstarted hcompleted hchanged]
    exact allows_written_iff _ _ hagree _ _

theorem agree_rememberCommand_iff (command : ThreadCommand)
    (answer : Except AppServerError Json) (transportEpoch : Nat) :
    (sources (state.actor.rememberCommand state.store command answer
        transportEpoch).2.toEventTables state.actor.threadId).Agree ↔
      state.CommandSafe command answer transportEpoch := by
  cases answer with
  | error error => cases command <;> exact iff_of_true hagree trivial
  | ok value =>
    cases command with
    | turnStart input settings =>
      exact agree_persistProjection_iff hagree
        { state.actor with
          status := .running
          activeTurnId :=
            (extractTurnId value).or state.actor.activeTurnId } rfl _ _
    | turnInterrupt turnId =>
      exact agree_persistProjection_iff hagree
        { state.actor with status := .interrupted } rfl _ _
    | threadResume target =>
      simp only [ThreadActor.rememberCommand]
      split <;> exact iff_of_true hagree trivial
    | threadStart | turnSteer | approvalRespond | writerAcquire
    | writerRelease | threadArchive => exact iff_of_true hagree trivial

omit hagree in
/-- The condition is on what recovery ends with. -/
theorem recoverySafe_iff (memory : ThreadActor) (forceResume : Bool)
    (resume read : Except AppServerError Json) (transportEpoch : Nat) :
    state.RecoverySafe memory forceResume resume read transportEpoch ↔
      ∀ next ∈ memory.recovered forceResume resume read,
        state.ProjectionSafe none transportEpoch next.status
          next.activeTurnId := by
  unfold RecoverySafe ThreadActor.recovered
  cases memory.shouldResume forceResume <;> cases resume <;> cases read <;>
    simp [ThreadActor.restoreStatus, answeredStatus, answeredTurn]

theorem agree_recoverOnStartup_iff (memory : ThreadActor)
    (hthread : memory.threadId = state.actor.threadId)
    (forceResume : Bool) (resume read : Except AppServerError Json)
    (transportEpoch : Nat) :
    (sources (memory.recoverOnStartup state.store forceResume resume read
        transportEpoch).2.toEventTables state.actor.threadId).Agree ↔
      state.RecoverySafe memory forceResume resume read transportEpoch := by
  rw [ThreadActor.recoverOnStartup, recoverySafe_iff]
  cases hnext : memory.recovered forceResume resume read with
  | none => exact iff_of_true hagree (by simp)
  | some next =>
    have hsame := (ThreadActor.recovered_threadId hnext).trans hthread
    rw [agree_persistProjection_iff hagree next hsame]
    simp

/-- The memory that hydration makes is recovered as one that shows the row. -/
theorem recoverySafe_hydrated (resume read : Except AppServerError Json)
    (transportEpoch : Nat) :
    state.RecoverySafe (state.actor.hydrateFromStore state.store.toEventTables)
        false resume read transportEpoch ↔
      state.RecoverySafe state.recordedMemory false resume read
        transportEpoch := by
  obtain ⟨hstatus, hturn, hloaded⟩ := hydrated_eq hagree
  simp only [RecoverySafe, ThreadActor.shouldResume, hstatus, hturn, hloaded,
    Bool.false_and]

theorem agree_ingestServerRequest_iff (epoch transportEpoch : Nat)
    (method : String) (registered : Option PendingApproval) :
    (sources (state.actor.ingestServerRequest state.store epoch transportEpoch
        method registered none).2.1.toEventTables
        state.actor.threadId).Agree ↔
      (registered.isSome = true → ThreadActor.requestsApproval method = true →
        state.ProjectionSafe (some epoch) transportEpoch .waitingForApproval
          state.actor.activeTurnId) := by
  cases hfilter : registered.filter fun _ =>
      ThreadActor.requestsApproval method with
  | none =>
    simp only [ThreadActor.ingestServerRequest, hfilter]
    refine iff_of_true hagree fun hsome hmethod => ?_
    obtain ⟨approval, rfl⟩ := isSome_iff_exists.mp hsome
    simp [Option.filter, hmethod] at hfilter
  | some approval =>
    obtain ⟨rfl, hmethod⟩ := filter_eq_some_iff.mp hfilter
    simp only [ThreadActor.ingestServerRequest, isSome_some, true_implies,
      hmethod]
    exact agree_persistProjection_iff hagree
      { state.actor with status := .waitingForApproval } rfl _ _

/-- The first writes of a message keep row, snapshot and log agreed exactly
when the message is safe. -/
theorem agree_handle_iff (digest : Json → String)
    (message : ThreadActorMessage) :
    (sources (state.actor.handle digest state.store
        message.unsaved).store.toEventTables state.actor.threadId).Agree ↔
      state.MessageSafe digest message := by
  cases message with
  | attachClient | detachClient | ack | createSnapshot =>
    exact iff_of_true hagree trivial
  | clientCommand deviceId request lookup outside =>
    simp only [ThreadActorMessage.unsaved, ThreadActor.handle,
      ThreadActor.handleCommand, MessageSafe]
    split
    · rename_i hearly
      exact iff_of_true hagree (by simp [hearly])
    · rename_i hearly
      split
      · rename_i hrefused
        exact iff_of_true hagree (by simp [hrefused])
      · rename_i hallowed
        refine (agree_rememberCommand_iff hagree request.command
          outside.answer outside.epoch).trans ?_
        simp [hearly, hallowed]
  | upstreamEvent epoch method payload now reads =>
    by_cases hroom : state.store.events.length + 1 < 2 ^ 63
    · refine (agree_ingestUpstreamEvent_iff hagree epoch method payload now
        hroom).trans ?_
      simp only [MessageSafe, hroom, true_implies]
    · rcases ingestUpstreamEvent_cases state.actor state.store epoch method
        payload now none with ⟨-, hlost⟩ | ⟨stored, next, happend, -⟩
      · simp only [ThreadActorMessage.unsaved, ThreadActor.handle, hlost]
        exact iff_of_true hagree fun hholds => absurd hholds hroom
      · exact absurd (appendEvent_ok happend).1 hroom
  | upstreamServerRequest epoch transportEpoch method registered reads =>
    exact agree_ingestServerRequest_iff hagree epoch transportEpoch method
      registered
  | upstreamDisconnected epoch transportEpoch =>
    exact agree_persistProjection_iff hagree
      { state.actor with status := .indeterminate } rfl _ _
  | recoverOnStartup resume read transportEpoch =>
    exact (agree_recoverOnStartup_iff hagree _
      (ThreadActor.hydrateFromStore_threadId _ _) false resume read
      transportEpoch).trans (recoverySafe_hydrated hagree resume read
        transportEpoch)
  | recoverAfterReconnect resume read transportEpoch =>
    exact agree_recoverOnStartup_iff hagree state.actor rfl true resume read
      transportEpoch

/-- The snapshot that is saved then keeps them agreed exactly when it is
safe. -/
theorem agree_persistSnapshot_iff
    (hbehind : SnapshotsBehind state.store.toEventTables state.actor.threadId)
    (pending : List PendingApproval) (lease : Option WriterLeaseView) :
    (sources (state.actor.persistSnapshot state.store
        (some (pending, lease))).toEventTables state.actor.threadId).Agree ↔
      state.SnapshotSafe := by
  have hsaved := (sources_persistSnapshot state.actor state.store
    (some (pending, lease)) (rowed_of_agree hagree) hbehind).1
  obtain ⟨hstatus, hturn⟩ := allows_row hagree
  rw [agree_iff_allows_row hagree (by rw [hsaved]; rfl), hsaved, SnapshotSafe,
    log, ← isSome_status_ofLog, ← isSome_turn_ofLog]
  have hlog : Recorded.ofLog (state.store.threadEvents state.actor.threadId) =
      state.onRecord.log := rfl
  rw [hlog]
  refine and_congr ?_ ?_
  · cases hsaid : state.onRecord.log.status with
    | none =>
      simp [Recorded.above, Recorded.ofActor, sources, hlog, hsaid, eq_comm]
    | some said =>
      have hsame := hstatus said (by simp [Recorded.above, hsaid])
      simp [Recorded.above, sources, hlog, hsaid, hsame]
  · cases hsaid : state.onRecord.log.turn with
    | none =>
      simp [Recorded.above, Recorded.ofActor, sources, hlog, hsaid, eq_comm]
    | some said =>
      have hsame := hturn said (by simp [Recorded.above, hsaid])
      simp [Recorded.above, sources, hlog, hsaid, hsame]

theorem snapshotsBehind_quietWrite
    (hbehind : SnapshotsBehind state.store.toEventTables state.actor.threadId)
    {next : EventStore} (hwrite : state.actor.QuietWrite state.store next) :
    SnapshotsBehind next.toEventTables state.actor.threadId := by
  have hrow := rowed_of_agree hagree
  cases hwrite with
  | nothing => exact hbehind
  | projection => exact snapshotsBehind_persistProjection _ _ hbehind
  | snapshot memory reads hthread =>
    rw [← hthread] at hrow hbehind ⊢
    exact (sources_persistSnapshot memory state.store reads hrow hbehind).2
  | both memory epoch transportEpoch reads hthread =>
    rw [← hthread] at hbehind ⊢
    exact (sources_persistSnapshot memory _ reads
      (rowed_persistProjection _ _ _ _)
      (snapshotsBehind_persistProjection _ _ hbehind)).2

theorem snapshotsBehind_handle (digest : Json → String)
    (hbehind : SnapshotsBehind state.store.toEventTables state.actor.threadId)
    (message : ThreadActorMessage) :
    SnapshotsBehind (state.actor.handle digest state.store
      message.unsaved).store.toEventTables state.actor.threadId := by
  cases message with
  | upstreamEvent epoch method payload now reads =>
    by_cases hroom : state.store.events.length + 1 < 2 ^ 63
    · obtain ⟨-, -, -, -, -, hnext⟩ := sources_ingestUpstreamEvent state epoch
        method payload now hroom
      exact hnext hbehind
    · rcases ingestUpstreamEvent_cases state.actor state.store epoch method
        payload now none with ⟨-, hlost⟩ | ⟨stored, next, happend, -⟩
      · simp only [ThreadActorMessage.unsaved, ThreadActor.handle, hlost]
        exact hbehind
      · exact absurd (appendEvent_ok happend).1 hroom
  | _ =>
    exact snapshotsBehind_quietWrite hagree hbehind
      (state.actor.handle_quiet digest state.store
        (by rintro _ _ _ _ _ ⟨⟩)).1

end Agreed

/-- What a run keeps: the thread, the agreement of what is on record, and that
no snapshot is ahead of the log. -/
structure Restorable (threadId : String) (state : ActorState) : Prop where
  thread : state.actor.threadId = threadId
  agree : state.onRecord.Agree
  behind : SnapshotsBehind state.store.toEventTables state.actor.threadId

theorem restorable_start (threadId : String) :
    Restorable threadId (start threadId) where
  thread := rfl
  agree := by
    have hfind : (start threadId).store.threads.find? threadId =
        some (ThreadRow.fresh threadId none .idle) := by
      refine (find?_ensureThreadOn _ _ _ _ _).trans ?_
      rw [if_pos rfl]
      rfl
    refine ⟨("idle", none), ?_, ?_⟩
    · exact congrArg (Option.map ThreadRow.projection) hfind
    · exact ⟨by rintro _ ⟨⟩, by rintro _ ⟨⟩⟩
  behind := by
    intro snapshot hsnapshot
    exact absurd hsnapshot List.not_mem_nil

/-- Writes of other threads move none of the sources. -/
theorem Restorable.of_untouched {threadId : String}
    (hrestorable : Restorable threadId state) {store : EventStore}
    (huntouched : Untouched state.store.toEventTables store.toEventTables
      state.actor.threadId) (due : ThreadActor.SnapshotReads) :
    Restorable threadId ⟨state.actor, store, due⟩ := by
  obtain ⟨hrow, hevents, hsnapshots⟩ := huntouched
  refine ⟨hrestorable.thread, ?_, ?_⟩
  · have hsame : (⟨state.actor, store, due⟩ : ActorState).onRecord =
        state.onRecord := by
      simp [onRecord, sources, EventTables.latestSnapshot, hrow, hevents,
        hsnapshots]
    rw [hsame]
    exact hrestorable.agree
  · intro snapshot hsnapshot hthread
    have hmem : snapshot ∈ store.snapshots.rows.filter fun snapshot =>
        snapshot.threadId = state.actor.threadId :=
      List.mem_filter.mpr ⟨hsnapshot, decide_eq_true hthread⟩
    rw [hsnapshots] at hmem
    have hle := hrestorable.behind snapshot (List.mem_of_mem_filter hmem)
      hthread
    rw [← hevents] at hle
    exact hle

theorem restorable_step {digest : Json → String} {threadId : String}
    {next : ActorState} {action : Action}
    (hrestorable : Restorable threadId state)
    (hok : state.RestartSafe digest action)
    (hstep : state.step digest action = some next) :
    Restorable threadId next := by
  obtain ⟨hthread, hagree, hbehind⟩ := id hrestorable
  cases action with
  | message message =>
    rw [step] at hstep
    split at hstep
    · cases hstep
    · rw [← some.inj hstep]
      have hsame :=
        state.actor.handle_threadId digest state.store message.unsaved
      refine ⟨hsame.trans hthread, ?_, ?_⟩
      · rw [onRecord, hsame]
        exact (agree_handle_iff hagree digest message).mpr hok
      · rw [hsame]
        exact snapshotsBehind_handle hagree digest hbehind message
  | snapshot =>
    obtain ⟨⟨pending, lease⟩, -, rfl⟩ := map_eq_some_iff.mp hstep
    refine ⟨hthread, ?_, ?_⟩
    · exact (agree_persistSnapshot_iff hagree hbehind pending lease).mpr hok
    · exact (sources_persistSnapshot state.actor state.store
        (some (pending, lease)) (rowed_of_agree hagree) hbehind).2
  | restart =>
    rw [step, some.injEq] at hstep
    rw [← hstep]
    have hkept : Restorable threadId ⟨state.actor,
        state.store.ensureThread state.actor.threadId none .idle, none⟩ := by
      apply hrestorable.of_untouched
      refine ⟨?_, rfl, rfl⟩
      obtain ⟨row, hrow⟩ := isSome_iff_exists.mp (rowed_of_agree hagree)
      have hensured := state.store.find?_ensureThreadOn state.actor.threadId
        none .idle state.actor.threadId
      rw [if_pos rfl, hrow] at hensured
      rw [hrow]
      exact congrArg (Option.map ThreadRow.projection) hensured
    exact ⟨hkept.thread, hkept.agree, hkept.behind⟩
  | elsewhere store =>
    rw [step] at hstep
    split at hstep
    · rename_i huntouched
      rw [← some.inj hstep]
      exact hrestorable.of_untouched huntouched _
    · cases hstep

/-- After any run of a thread's actor whose writes were all safe, restarts
between any two of them and writes of other threads included, a fresh actor
hydrates to the status and turn of the row. -/
theorem hydration_restores_row {digest : Json → String} {threadId : String}
    {actions : List Action} {finish : ActorState}
    (run : GuardedRun (step digest) (RestartSafe digest) (start threadId)
      actions finish) :
    HydratesRow finish.store.toEventTables threadId := by
  have hrestorable : Restorable threadId finish :=
    run.invariant (restorable_start threadId) fun _ _ _ hinv hok hstep =>
      restorable_step hinv hok hstep
  have hagree := hrestorable.agree
  rw [onRecord, hrestorable.thread] at hagree
  exact (hydratesRow_iff finish.store threadId).mpr hagree

namespace LostDisconnect

def event (method : String) : Action :=
  .message (.upstreamEvent 1 method (.obj [("turnId", .str "turn-1")]) 0
    (some ([], none)))

/-- No command is sent here. -/
def digest : Json → String := fun _ => ""

/-- A turn runs and ends; then the upstream goes away. -/
def disconnectActions : List Action :=
  [event "turn/started", event "turn/completed", .snapshot,
    .message (.upstreamDisconnected 1 1)]

/-- The row says the thread is indeterminate, which is what recovery selects
it for; the hydrated actor is back at "completed". -/
theorem disconnect_lost_by_hydration :
    ∃ finish, runActions (step digest) (start "thread-1") disconnectActions =
        some finish ∧
      (finish.store.threads.find? "thread-1").map ThreadRow.projection =
        some ("indeterminate", none) ∧
      ((ThreadActor.spawn "thread-1").hydrateFromStore
        finish.store.toEventTables).status = .completed ∧
      ¬ HydratesRow finish.store.toEventTables "thread-1" :=
  ⟨_, rfl, by decide⟩

/-- Two turns, with an item in the first and a restart before the snapshot of
its end, can be hydrated. -/
theorem finished_turn_hydrated :
    ∃ finish, GuardedRun (step digest) (RestartSafe digest) (start "thread-1")
        [event "turn/started", event "item/completed", event "turn/completed",
          .restart, event "turn/started", event "turn/completed",
          .snapshot] finish ∧
      HydratesRow finish.store.toEventTables "thread-1" := by
  have run : ∃ finish, GuardedRun (step digest) (RestartSafe digest)
      (start "thread-1") [event "turn/started", event "item/completed",
        event "turn/completed", .restart, event "turn/started",
        event "turn/completed", .snapshot] finish := by
    refine ⟨_, .cons ?_ rfl (.cons ?_ rfl (.cons ?_ rfl (.cons ?_ rfl
      (.cons ?_ rfl (.cons ?_ rfl (.cons ?_ rfl .nil))))))⟩
    · exact fun _ => Or.inl rfl
    · exact fun _ => eventSafe_of_keeps (by decide) (by decide) (by decide)
        (by decide)
    · exact fun _ hrunning => absurd hrunning (by decide)
    · trivial
    · exact fun _ => Or.inl rfl
    · exact fun _ hrunning => absurd hrunning (by decide)
    · exact ⟨fun hnot => absurd (by decide) hnot,
        fun hnot => absurd (by decide) hnot⟩
  obtain ⟨finish, run⟩ := run
  exact ⟨finish, run, hydration_restores_row run⟩

end LostDisconnect

end ActorState

end Vellum.Broker
