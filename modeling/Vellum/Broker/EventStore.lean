/-
Durable event persistence of the broker: the tables for threads, events,
upstream epochs and snapshots, and the statements the event store and the
snapshot store run on them.  The tables keep each thread's events numbered
densely from one; `EventStore` carries that as a field.
-/
import Vellum.Library.KeyedTable
import Vellum.Broker.Protocol

namespace Vellum.Broker

open List

/-- The text of `latest_status`. -/
def statusName : ThreadRuntimeStatus → String
  | .unknown => "unknown"
  | .storedNotLoaded => "stored_not_loaded"
  | .loading => "loading"
  | .idle => "idle"
  | .running => "running"
  | .waitingForApproval => "waiting_for_approval"
  | .interrupted => "interrupted"
  | .completed => "completed"
  | .failed => "failed"
  | .orphaned => "orphaned"
  | .indeterminate => "indeterminate"

def parseStatus : String → ThreadRuntimeStatus
  | "unknown" => .unknown
  | "stored_not_loaded" => .storedNotLoaded
  | "loading" => .loading
  | "idle" => .idle
  | "running" => .running
  | "waiting_for_approval" => .waitingForApproval
  | "interrupted" => .interrupted
  | "completed" => .completed
  | "failed" => .failed
  | "orphaned" => .orphaned
  | "indeterminate" => .indeterminate
  | _ => .unknown

@[simp]
theorem parseStatus_statusName (status : ThreadRuntimeStatus) :
    parseStatus (statusName status) = status := by
  cases status <;> rfl

/-- `value as i64` of an unsigned 64-bit value. -/
def asI64 (value : Nat) : Int := Int.bmod value (2 ^ 64)

theorem asI64_of_lt {value : Nat} (hlt : value < 2 ^ 63) :
    asI64 value = value := by
  apply Int.bmod_eq_of_le <;> omega

/-- A row of `remote_events`. -/
structure StoredEvent where
  seq : Nat
  threadSeq : Nat
  threadId : String
  turnId : Option String
  itemId : Option String
  upstreamEpoch : Nat
  method : String
  occurredAt : Nat
  payload : Json
deriving DecidableEq

/-- The downstream cursor of an event is its per-thread number. -/
def StoredEvent.intoProtocol (event : StoredEvent) : ThreadEvent where
  seq := event.threadSeq
  threadId := event.threadId
  upstreamEpoch := event.upstreamEpoch
  method := event.method
  occurredAt := event.occurredAt
  turnId := event.turnId
  itemId := event.itemId
  data := event.payload

/-- A row of `remote_threads`. -/
structure ThreadRow where
  threadId : String
  cwd : Option String
  latestStatus : String
  loaded : Bool
  activeTurnId : Option String
  lastUpstreamEpoch : Option Nat
  lastEventSeq : Nat
  lastSnapshotSeq : Option Nat

/-- The projection fields written with events and recovery outcomes.  For the
active turn, `some none` clears it and `none` is documented to leave it. -/
structure ThreadProjectionUpdate where
  status : ThreadRuntimeStatus
  loaded : Bool
  activeTurnId : Option (Option String)
  upstreamEpoch : Option Nat

/-- The row `ensure_thread_on` inserts. -/
def ThreadRow.fresh (threadId : String) (cwd : Option String)
    (status : ThreadRuntimeStatus) : ThreadRow where
  threadId := threadId
  cwd := cwd
  latestStatus := statusName status
  loaded := false
  activeTurnId := none
  lastUpstreamEpoch := none
  lastEventSeq := 0
  lastSnapshotSeq := none

/-- `cwd = COALESCE(excluded.cwd, remote_threads.cwd)`. -/
def ThreadRow.coalesceCwd (cwd : Option String) (row : ThreadRow) :
    ThreadRow :=
  { row with cwd := cwd.or row.cwd }

/-- The columns `update_thread_projection` writes. -/
def ThreadRow.project (update : ThreadProjectionUpdate) (row : ThreadRow) :
    ThreadRow :=
  { row with
    latestStatus := statusName update.status
    loaded := update.loaded
    activeTurnId := match update.activeTurnId with
      | some (some turnId) => some turnId
      | some none => none
      | none => row.activeTurnId
    lastUpstreamEpoch := update.upstreamEpoch.or row.lastUpstreamEpoch }

/-- The columns `append_event` writes.  An update that leaves the active turn
still lets the event's own turn id in: `COALESCE(?6, active_turn_id)`. -/
def ThreadRow.recordEvent (event : StoredEvent)
    (projection : ThreadProjectionUpdate) (row : ThreadRow) : ThreadRow :=
  { row with
    lastEventSeq := event.threadSeq
    lastUpstreamEpoch := some event.upstreamEpoch
    latestStatus := statusName projection.status
    loaded := projection.loaded
    activeTurnId := match projection.activeTurnId with
      | some none => none
      | some (some turn) => some turn
      | none => event.turnId.or row.activeTurnId }

/-- The column `save_snapshot` writes. -/
def ThreadRow.noteSnapshot (snapshotSeq : Nat) (row : ThreadRow) : ThreadRow :=
  { row with lastSnapshotSeq := some snapshotSeq }

@[simp]
theorem ThreadRow.project_threadId (update : ThreadProjectionUpdate)
    (row : ThreadRow) : (row.project update).threadId = row.threadId := rfl

@[simp]
theorem ThreadRow.recordEvent_threadId (event : StoredEvent)
    (projection : ThreadProjectionUpdate) (row : ThreadRow) :
    (row.recordEvent event projection).threadId = row.threadId := rfl

@[simp]
theorem ThreadRow.noteSnapshot_threadId (snapshotSeq : Nat) (row : ThreadRow) :
    (row.noteSnapshot snapshotSeq).threadId = row.threadId := rfl

structure EventTables where
  upstreamEpochs : List Nat
  threads : KeyedTable ThreadRow.threadId
  events : List StoredEvent
  snapshots : KeyedTable
    fun snapshot : ThreadSnapshot => (snapshot.threadId, snapshot.snapshotSeq)

namespace EventTables

def empty : EventTables := ⟨[], .empty, [], .empty⟩

variable (tables : EventTables) (threadId : String)

/-- The events of one thread, in the order they were appended. -/
def threadEvents : List StoredEvent :=
  tables.events.filter fun event => event.threadId = threadId

/-- `INSERT INTO upstream_epochs ... ON CONFLICT(epoch) DO NOTHING`. -/
def ensureEpoch (epoch : Nat) : EventTables :=
  if epoch ∈ tables.upstreamEpochs then tables
  else { tables with upstreamEpochs := tables.upstreamEpochs ++ [epoch] }

def ensureThreadOn (cwd : Option String) (status : ThreadRuntimeStatus) :
    EventTables :=
  { tables with
    threads := tables.threads.upsert (ThreadRow.fresh threadId cwd status)
      (ThreadRow.coalesceCwd cwd) }

/-- `UPDATE remote_threads SET ... WHERE thread_id = ?`. -/
def updateThread (f : ThreadRow → ThreadRow)
    (hf : ∀ row, (f row).threadId = row.threadId) : EventTables :=
  { tables with
    threads := tables.threads.modify (fun row => row.threadId = threadId) f hf }

/-- Whether `last_upstream_epoch` may be set to the epoch: it refers to
`upstream_epochs`. -/
def epochKnown : Option Nat → Bool
  | some epoch => epoch ∈ tables.upstreamEpochs
  | none => true

/-- `update_thread_projection`.  The row is ensured first and on its own, so
it stays when the update then fails on the foreign key. -/
def updateThreadProjection (update : ThreadProjectionUpdate) :
    Except StoreError Unit × EventTables :=
  let ensured := tables.ensureThreadOn threadId none update.status
  if ensured.epochKnown update.upstreamEpoch then
    (.ok (), ensured.updateThread threadId (ThreadRow.project update)
      (ThreadRow.project_threadId update))
  else
    (.error ⟨"sqlite error: FOREIGN KEY constraint failed"⟩, ensured)

/-- `SELECT MAX(thread_seq)` of one thread, `0` when it has no events. -/
def maxThreadSeq : Nat :=
  ((tables.threadEvents threadId).map StoredEvent.threadSeq).foldl max 0

/-- `append_event`: one transaction.  The global `seq` is an autoincremented
row id, of which there are `2 ^ 63 - 1`. -/
def appendEvent (upstreamEpoch : Nat) (method : String) (payload : Json)
    (turnId itemId : Option String) (occurredAt : Nat)
    (projection : ThreadProjectionUpdate) :
    Except StoreError (StoredEvent × EventTables) :=
  if 2 ^ 63 ≤ tables.events.length + 1 then
    .error ⟨"sqlite error: database or disk is full"⟩
  else
    let ensured := (tables.ensureEpoch upstreamEpoch).ensureThreadOn
      threadId none projection.status
    let event : StoredEvent :=
      { seq := ensured.events.length + 1
        threadSeq := ensured.maxThreadSeq threadId + 1
        threadId, turnId, itemId, upstreamEpoch, method, occurredAt, payload }
    .ok (event, { ensured.updateThread threadId
        (ThreadRow.recordEvent event projection)
        (ThreadRow.recordEvent_threadId event projection) with
      events := ensured.events ++ [event] })

/-- `ORDER BY thread_seq ASC`. -/
def orderBySeq (events : List StoredEvent) : List StoredEvent :=
  events.insertionSort fun left right => left.threadSeq ≤ right.threadSeq

/-- `LIMIT`: a negative limit is none. -/
def limitRows (limit : Int) (events : List StoredEvent) : List StoredEvent :=
  if limit < 0 then events else events.take limit.toNat

def eventsAfter (afterSeq limit : Nat) : List StoredEvent :=
  limitRows (asI64 limit) (orderBySeq
    ((tables.threadEvents threadId).filter fun event =>
      asI64 afterSeq < event.threadSeq))

/-- The methods of the consolidated timeline. -/
def isTimelineMethod (method : String) : Bool :=
  method ∈ ["turn/started", "turn/completed", "item/started", "item/completed"]

def sessionTimelineEvents : List StoredEvent :=
  orderBySeq ((tables.threadEvents threadId).filter fun event =>
    isTimelineMethod event.method)

def latestSeq : Nat :=
  match tables.threads.find? threadId with
  | some row => row.lastEventSeq
  | none => tables.maxThreadSeq threadId

/-- Status, loaded flag, active turn and last event number of a thread. -/
def threadProjection :
    Option (ThreadRuntimeStatus × Bool × Option String × Nat) :=
  (tables.threads.find? threadId).map fun row =>
    (parseStatus row.latestStatus, row.loaded, row.activeTurnId,
      row.lastEventSeq)

/-- `save_snapshot`: the snapshot replaces one of the same thread and number,
and the thread row, which must exist, remembers the number. -/
def saveSnapshot (snapshot : ThreadSnapshot) : Except StoreError EventTables :=
  if (tables.threads.find? snapshot.threadId).isSome then
    .ok { tables.updateThread snapshot.threadId
        (ThreadRow.noteSnapshot snapshot.snapshotSeq)
        (ThreadRow.noteSnapshot_threadId snapshot.snapshotSeq) with
      snapshots := tables.snapshots.put snapshot }
  else .error ⟨"sqlite error: FOREIGN KEY constraint failed"⟩

/-- `ORDER BY snapshot_seq DESC LIMIT 1`. -/
def latestSnapshot : Option ThreadSnapshot :=
  ((tables.snapshots.rows.filter fun snapshot =>
      snapshot.threadId = threadId).insertionSort
    fun left right => right.snapshotSeq ≤ left.snapshotSeq).head?

variable {tables next : EventTables} {afterSeq : Nat} {event : StoredEvent}

theorem threadId_of_mem {threadId : String}
    (hevent : event ∈ tables.threadEvents threadId) :
    event.threadId = threadId := by
  simpa using of_mem_filter hevent

theorem mem_of_mem_eventsAfter {threadId : String} {limit : Nat}
    (hevent : event ∈ tables.eventsAfter threadId afterSeq limit) :
    event ∈ tables.threadEvents threadId := by
  have hordered : event ∈ orderBySeq ((tables.threadEvents threadId).filter
      fun event => asI64 afterSeq < event.threadSeq) := by
    unfold eventsAfter limitRows at hevent
    split at hevent
    · exact hevent
    · exact mem_of_mem_take hevent
  exact mem_of_mem_filter ((mem_insertionSort _).mp hordered)

/-- The newest snapshot is one of the thread, and none is newer. -/
theorem latestSnapshot_eq_some_iff (tables : EventTables) (threadId : String)
    (newest : ThreadSnapshot) :
    tables.latestSnapshot threadId = some newest ↔
      (newest ∈ tables.snapshots.rows ∧ newest.threadId = threadId) ∧
        ∀ snapshot ∈ tables.snapshots.rows, snapshot.threadId = threadId →
          snapshot.snapshotSeq ≤ newest.snapshotSeq := by
  let newer (left right : ThreadSnapshot) : Prop :=
    right.snapshotSeq ≤ left.snapshotSeq
  have : IsTrans ThreadSnapshot newer :=
    ⟨fun _ _ _ hleft hright => Nat.le_trans hright hleft⟩
  have : Std.Total newer := ⟨fun left right => Nat.le_total _ _⟩
  have hsorted := pairwise_insertionSort newer
    (tables.snapshots.rows.filter fun snapshot => snapshot.threadId = threadId)
  have hmem : ∀ snapshot, snapshot ∈ (tables.snapshots.rows.filter
        fun snapshot => snapshot.threadId = threadId).insertionSort newer ↔
      snapshot ∈ tables.snapshots.rows ∧ snapshot.threadId = threadId := by
    simp
  unfold latestSnapshot
  constructor
  · intro hhead
    obtain ⟨rest, hrows⟩ := head?_eq_some_iff.mp hhead
    rw [hrows] at hsorted hmem
    refine ⟨(hmem newest).mp mem_cons_self, ?_⟩
    intro snapshot hsnapshot hthread
    rcases mem_cons.mp ((hmem snapshot).mpr ⟨hsnapshot, hthread⟩) with
      rfl | hrest
    · exact Nat.le_refl _
    · exact rel_of_pairwise_cons hsorted hrest
  · rintro ⟨hnewest, hmax⟩
    cases hrows : (tables.snapshots.rows.filter fun snapshot =>
        snapshot.threadId = threadId).insertionSort newer with
    | nil =>
      rw [hrows] at hmem
      exact absurd ((hmem newest).mpr hnewest) not_mem_nil
    | cons first rest =>
      rw [hrows] at hsorted hmem
      obtain ⟨hfirst, hthread⟩ := (hmem first).mp mem_cons_self
      have hle : newest.snapshotSeq ≤ first.snapshotSeq := by
        rcases mem_cons.mp ((hmem newest).mpr hnewest) with rfl | hrest
        · exact Nat.le_refl _
        · exact rel_of_pairwise_cons hsorted hrest
      have hge := hmax first hfirst hthread
      -- two snapshots of one thread and number are one row
      have hsame : first = newest := tables.snapshots.eq_of_mem hfirst
        hnewest.1 (Prod.ext (hthread.trans hnewest.2.symm) (by
          exact Nat.le_antisymm hge hle))
      rw [hsame]
      rfl

/-- The numbering law of the tables: each thread's events are numbered
`1, 2, ...` in the order they were appended, its row counts them, and a thread
without a row has none.  Row ids bound the number of events. -/
structure Dense (tables : EventTables) : Prop where
  seqs : ∀ threadId, (tables.threadEvents threadId).map StoredEvent.threadSeq =
    List.range' 1 (tables.threadEvents threadId).length
  counted : ∀ threadId row, tables.threads.find? threadId = some row →
    row.lastEventSeq = (tables.threadEvents threadId).length
  rowed : ∀ threadId, tables.threads.find? threadId = none →
    tables.threadEvents threadId = []
  bounded : tables.events.length < 2 ^ 63

theorem dense_empty : empty.Dense where
  seqs _ := rfl
  counted _ _ hrow := by simp [empty] at hrow
  rowed _ _ := rfl
  bounded := by decide

private theorem foldl_max_range' (start count : Nat) :
    (List.range' (start + 1) count).foldl max start = start + count := by
  induction count generalizing start with
  | zero => simp
  | succ n ih =>
    rw [List.range'_succ, foldl_cons, Nat.max_eq_right (Nat.le_succ _),
      ih]
    omega

section

variable (hdense : tables.Dense)
include hdense

theorem Dense.maxThreadSeq_eq (threadId : String) :
    tables.maxThreadSeq threadId =
      (tables.threadEvents threadId).length := by
  have hfold := foldl_max_range' 0 (tables.threadEvents threadId).length
  rw [maxThreadSeq, hdense.seqs]
  simpa using hfold

theorem Dense.latestSeq_eq (threadId : String) :
    tables.latestSeq threadId =
      (tables.threadEvents threadId).length := by
  unfold latestSeq
  split
  · rename_i row hrow
    exact hdense.counted threadId row hrow
  · exact hdense.maxThreadSeq_eq threadId

theorem Dense.threadEvents_length_lt (threadId : String) :
    (tables.threadEvents threadId).length < 2 ^ 63 :=
  Nat.lt_of_le_of_lt (length_filter_le _ _) hdense.bounded

/-- The event at a position of a thread's log carries that position. -/
theorem Dense.threadSeq_getElem (threadId : String) {i : Nat}
    (hi : i < (tables.threadEvents threadId).length) :
    ((tables.threadEvents threadId)[i]).threadSeq = i + 1 := by
  have hseq := congrArg (fun seqs => seqs[i]?) (hdense.seqs threadId)
  simp only [getElem?_map, getElem?_eq_getElem hi,
    Option.map_some] at hseq
  rw [getElem?_range' hi] at hseq
  simpa [Nat.add_comm] using hseq

theorem Dense.threadSeq_le {threadId : String}
    (hevent : event ∈ tables.threadEvents threadId) :
    1 ≤ event.threadSeq ∧
      event.threadSeq ≤ (tables.threadEvents threadId).length := by
  obtain ⟨i, hi, rfl⟩ := getElem_of_mem hevent
  rw [hdense.threadSeq_getElem threadId hi]
  omega

/-- A table update that leaves the events alone and keeps every row's event
count keeps the numbering law. -/
theorem Dense.of_threads (hevents : next.events = tables.events)
    (hcounted : ∀ threadId row, next.threads.find? threadId = some row →
      (∃ old, tables.threads.find? threadId = some old ∧
        row.lastEventSeq = old.lastEventSeq) ∨
      tables.threads.find? threadId = none ∧ row.lastEventSeq = 0)
    (hrowed : ∀ threadId, next.threads.find? threadId = none →
      tables.threads.find? threadId = none) : next.Dense := by
  have hsame : ∀ threadId,
      next.threadEvents threadId = tables.threadEvents threadId := by
    intro threadId
    rw [threadEvents, threadEvents, hevents]
  refine ⟨?_, ?_, ?_, ?_⟩
  · intro threadId
    rw [hsame]
    exact hdense.seqs threadId
  · intro threadId row hrow
    rw [hsame]
    rcases hcounted threadId row hrow with ⟨old, hold, heq⟩ | ⟨hnone, hzero⟩
    · rw [heq]
      exact hdense.counted threadId old hold
    · rw [hzero, hdense.rowed threadId hnone, length_nil]
  · intro threadId hnone
    rw [hsame]
    exact hdense.rowed threadId (hrowed threadId hnone)
  · rw [hevents]
    exact hdense.bounded

theorem dense_ensureEpoch (epoch : Nat) : (tables.ensureEpoch epoch).Dense := by
  unfold ensureEpoch
  split
  · exact hdense
  · exact ⟨hdense.seqs, hdense.counted, hdense.rowed, hdense.bounded⟩

end

theorem find?_ensureThreadOn (tables : EventTables) (threadId : String)
    (cwd : Option String) (status : ThreadRuntimeStatus) (other : String) :
    (tables.ensureThreadOn threadId cwd status).threads.find? other =
      if other = threadId then
        some ((tables.threads.find? other).elim
          (ThreadRow.fresh threadId cwd status) (ThreadRow.coalesceCwd cwd))
      else tables.threads.find? other :=
  tables.threads.find?_upsert (ThreadRow.fresh threadId cwd status)
    (ThreadRow.coalesceCwd cwd) (fun _ => rfl) other

theorem dense_ensureThreadOn (hdense : tables.Dense) (threadId : String)
    (cwd : Option String) (status : ThreadRuntimeStatus) :
    (tables.ensureThreadOn threadId cwd status).Dense := by
  have hevents :
      (tables.ensureThreadOn threadId cwd status).events = tables.events := rfl
  apply hdense.of_threads hevents
  · intro other row hrow
    rw [find?_ensureThreadOn] at hrow
    by_cases hother : other = threadId
    · rw [if_pos hother, Option.some.injEq] at hrow
      subst hrow
      cases hfind : tables.threads.find? other with
      | none => exact Or.inr ⟨rfl, rfl⟩
      | some old => exact Or.inl ⟨old, rfl, rfl⟩
    · rw [if_neg hother] at hrow
      exact Or.inl ⟨row, hrow, rfl⟩
  · intro other hnone
    rw [find?_ensureThreadOn] at hnone
    by_cases hother : other = threadId
    · simp [hother] at hnone
    · rwa [if_neg hother] at hnone

theorem find?_updateThread (tables : EventTables) (threadId : String)
    (f : ThreadRow → ThreadRow) (hf : ∀ row, (f row).threadId = row.threadId)
    (other : String) :
    (tables.updateThread threadId f hf).threads.find? other =
      if other = threadId then (tables.threads.find? other).map f
      else tables.threads.find? other := by
  rw [updateThread, KeyedTable.find?_modify]
  cases hfind : tables.threads.find? other with
  | none => simp
  | some row =>
    have hkey := KeyedTable.key_of_find? hfind
    by_cases hother : other = threadId <;> simp [hkey, hother]

/-- An `UPDATE` of a row's other columns keeps the numbering law. -/
theorem dense_updateThread (hdense : tables.Dense) (threadId : String)
    (f : ThreadRow → ThreadRow) (hf : ∀ row, (f row).threadId = row.threadId)
    (hseq : ∀ row, (f row).lastEventSeq = row.lastEventSeq) :
    (tables.updateThread threadId f hf).Dense := by
  have hevents :
      (tables.updateThread threadId f hf).events = tables.events := rfl
  apply hdense.of_threads hevents
  · intro other row hrow
    rw [find?_updateThread] at hrow
    by_cases hother : other = threadId
    · rw [if_pos hother] at hrow
      obtain ⟨old, hold, rfl⟩ := Option.map_eq_some_iff.mp hrow
      exact Or.inl ⟨old, hold, hseq old⟩
    · rw [if_neg hother] at hrow
      exact Or.inl ⟨row, hrow, rfl⟩
  · intro other hnone
    rw [find?_updateThread] at hnone
    by_cases hother : other = threadId
    · simpa [hother] using hnone
    · rwa [if_neg hother] at hnone

theorem dense_updateThreadProjection (hdense : tables.Dense) (threadId : String)
    (update : ThreadProjectionUpdate) :
    (tables.updateThreadProjection threadId update).2.Dense := by
  have hensured := dense_ensureThreadOn hdense threadId none update.status
  simp only [updateThreadProjection]
  split
  · exact dense_updateThread hensured threadId _ _ fun _ => rfl
  · exact hensured

theorem dense_saveSnapshot (hdense : tables.Dense) {snapshot : ThreadSnapshot}
    (hsave : tables.saveSnapshot snapshot = .ok next) : next.Dense := by
  unfold saveSnapshot at hsave
  split at hsave
  · rw [Except.ok.injEq] at hsave
    subst hsave
    have hupdated := dense_updateThread hdense snapshot.threadId
      (ThreadRow.noteSnapshot snapshot.snapshotSeq)
      (ThreadRow.noteSnapshot_threadId snapshot.snapshotSeq) (fun _ => rfl)
    exact ⟨hupdated.seqs, hupdated.counted, hupdated.rowed, hupdated.bounded⟩
  · cases hsave

/-- What a successful `append_event` returns: the next event of the thread,
appended to the log, and the thread row with the event recorded. -/
theorem appendEvent_ok {threadId method : String}
    {upstreamEpoch occurredAt : Nat} {payload : Json}
    {turnId itemId : Option String} {projection : ThreadProjectionUpdate}
    (happend : tables.appendEvent threadId upstreamEpoch method payload turnId
      itemId occurredAt projection = .ok (event, next)) :
    tables.events.length + 1 < 2 ^ 63 ∧
      event = { seq := tables.events.length + 1,
                threadSeq := tables.maxThreadSeq threadId + 1,
                threadId, turnId, itemId, upstreamEpoch, method, occurredAt,
                payload } ∧
      next.events = tables.events ++ [event] ∧
      next.snapshots = tables.snapshots ∧
      (∀ other, next.threads.find? other =
        if other = threadId then
          some ((((tables.threads.find? other).elim
            (ThreadRow.fresh threadId none projection.status)
            (ThreadRow.coalesceCwd none))).recordEvent event projection)
        else tables.threads.find? other) := by
  have hepoch : (tables.ensureEpoch upstreamEpoch).events = tables.events ∧
      (tables.ensureEpoch upstreamEpoch).threads = tables.threads ∧
      (tables.ensureEpoch upstreamEpoch).snapshots = tables.snapshots := by
    unfold ensureEpoch
    split <;> simp
  obtain ⟨hevents, hthreads, hsnapshots⟩ := hepoch
  unfold appendEvent at happend
  split at happend
  · cases happend
  · rename_i hroom
    simp only [Except.ok.injEq, Prod.mk.injEq] at happend
    obtain ⟨rfl, rfl⟩ := happend
    refine ⟨Nat.lt_of_not_ge hroom, ?_, ?_, hsnapshots, ?_⟩
    · simp [maxThreadSeq, threadEvents, ensureThreadOn, hevents]
    · simp [ensureThreadOn, hevents]
    · intro other
      refine (find?_updateThread _ threadId _
        (ThreadRow.recordEvent_threadId _ projection) other).trans ?_
      rw [find?_ensureThreadOn, hthreads]
      by_cases hother : other = threadId <;> simp [hother]

theorem threadEvents_append (hevents : next.events = tables.events ++ [event])
    (threadId : String) :
    next.threadEvents threadId =
      if event.threadId = threadId then tables.threadEvents threadId ++ [event]
      else tables.threadEvents threadId := by
  by_cases hthread : event.threadId = threadId <;>
    simp [threadEvents, hevents, filter_append, hthread]

theorem dense_appendEvent (hdense : tables.Dense) {threadId method : String}
    {upstreamEpoch occurredAt : Nat} {payload : Json}
    {turnId itemId : Option String} {projection : ThreadProjectionUpdate}
    (happend : tables.appendEvent threadId upstreamEpoch method payload turnId
      itemId occurredAt projection = .ok (event, next)) : next.Dense := by
  obtain ⟨hroom, hevent, hevents, -, hthreads⟩ := appendEvent_ok happend
  have hthread : event.threadId = threadId := by rw [hevent]
  have hseq : event.threadSeq =
      (tables.threadEvents threadId).length + 1 := by
    rw [hevent, hdense.maxThreadSeq_eq]
  refine ⟨?_, ?_, ?_, ?_⟩
  · intro other
    rw [threadEvents_append hevents]
    by_cases hother : event.threadId = other
    · subst hother
      rw [if_pos rfl, map_append, hdense.seqs, length_append,
        length_singleton, List.range'_1_concat, map_singleton, hseq,
        hthread, Nat.add_comm 1]
    · rw [if_neg hother]
      exact hdense.seqs other
  · intro other row hrow
    rw [hthreads] at hrow
    rw [threadEvents_append hevents]
    by_cases hother : other = threadId
    · rw [if_pos hother, Option.some.injEq] at hrow
      subst hrow
      rw [if_pos (hthread.trans hother.symm), length_append,
        length_singleton, hother]
      exact hseq
    · rw [if_neg hother] at hrow
      rw [if_neg fun heq => hother (heq.symm.trans hthread)]
      exact hdense.counted other row hrow
  · intro other hnone
    rw [hthreads] at hnone
    by_cases hother : other = threadId
    · simp [hother] at hnone
    · rw [if_neg hother] at hnone
      rw [threadEvents_append hevents,
        if_neg fun heq => hother (heq.symm.trans hthread)]
      exact hdense.rowed other hnone
  · rw [hevents, length_append, length_singleton]
    exact hroom

theorem Dense.pairwise_threadSeq (hdense : tables.Dense) (threadId : String) :
    (tables.threadEvents threadId).Pairwise fun left right =>
      left.threadSeq < right.threadSeq := by
  have hrange : (List.range' 1 (tables.threadEvents threadId).length).Pairwise
      (· < ·) := pairwise_lt_range'
  rw [← hdense.seqs threadId, pairwise_map] at hrange
  exact hrange

/-- On a dense log the sort of a query finds nothing to do. -/
theorem Dense.orderBySeq_filter (hdense : tables.Dense) (threadId : String)
    (p : StoredEvent → Bool) :
    orderBySeq ((tables.threadEvents threadId).filter p) =
      (tables.threadEvents threadId).filter p := by
  apply List.Pairwise.insertionSort_eq
  exact ((hdense.pairwise_threadSeq threadId).filter p).imp fun hlt =>
    Nat.le_of_lt hlt

theorem Dense.sessionTimelineEvents_eq (hdense : tables.Dense)
    (threadId : String) :
    tables.sessionTimelineEvents threadId =
      (tables.threadEvents threadId).filter fun event =>
        isTimelineMethod event.method :=
  hdense.orderBySeq_filter threadId _

private theorem filter_gt_eq_drop (events : List StoredEvent)
    (start cursor : Nat)
    (hseqs : events.map StoredEvent.threadSeq =
      List.range' (start + 1) events.length) :
    (events.filter fun event => decide (start + cursor < event.threadSeq)) =
      events.drop cursor := by
  induction events generalizing start cursor with
  | nil => simp
  | cons event rest ih =>
    rw [length_cons, List.range'_succ, map_cons,
      List.cons.injEq] at hseqs
    obtain ⟨hhead, htail⟩ := hseqs
    cases cursor with
    | zero =>
      have hrest := ih (start + 1) 0 htail
      have hall : ∀ other ∈ rest, start < other.threadSeq := by
        intro other hother
        have hmem : other.threadSeq ∈ rest.map StoredEvent.threadSeq :=
          mem_map_of_mem hother
        rw [htail, mem_range'_1] at hmem
        omega
      simp only [Nat.add_zero, drop_zero]
      apply filter_eq_self.mpr
      refine forall_mem_cons.mpr ⟨by simp [hhead], fun other hother => ?_⟩
      simp [hall other hother]
    | succ n =>
      have hskip : ¬ start + (n + 1) < event.threadSeq := by omega
      rw [filter_cons_of_neg (by simpa using hskip),
        drop_succ_cons, ← ih (start + 1) n htail]
      apply filter_congr
      intro other _
      rw [Nat.add_right_comm, Nat.add_assoc]

section

variable (hdense : tables.Dense)
include hdense

theorem Dense.filter_cursor (threadId : String) (afterSeq : Nat) :
    ((tables.threadEvents threadId).filter fun event =>
        decide (afterSeq < event.threadSeq)) =
      (tables.threadEvents threadId).drop afterSeq := by
  have hdrop := filter_gt_eq_drop (tables.threadEvents threadId) 0 afterSeq
    (by simpa using hdense.seqs threadId)
  simpa using hdrop

/-- Reading after a cursor yields the next events of the log, up to the
limit. -/
theorem Dense.eventsAfter_eq (threadId : String) {limit : Nat}
    (hafter : afterSeq < 2 ^ 63) (hlimit : limit < 2 ^ 63) :
    tables.eventsAfter threadId afterSeq limit =
      ((tables.threadEvents threadId).drop afterSeq).take limit := by
  have hnonneg : ¬ asI64 limit < 0 := by
    rw [asI64_of_lt hlimit]
    omega
  have hlimitNat : (asI64 limit).toNat = limit := by
    rw [asI64_of_lt hlimit, Int.toNat_natCast]
  have hquery : ((tables.threadEvents threadId).filter fun event =>
      decide (asI64 afterSeq < event.threadSeq)) =
      (tables.threadEvents threadId).drop afterSeq := by
    simp only [asI64_of_lt hafter, Int.ofNat_lt, hdense.filter_cursor]
  rw [eventsAfter, limitRows, if_neg hnonneg, hlimitNat,
    hdense.orderBySeq_filter, hquery]

/-- A stretch of the log is numbered consecutively. -/
theorem Dense.seqs_take_drop (threadId : String) (afterSeq limit : Nat) :
    let next := ((tables.threadEvents threadId).drop afterSeq).take limit
    next.map StoredEvent.threadSeq = List.range' (afterSeq + 1) next.length := by
  intro next
  have hlength : next.length =
      min limit ((tables.threadEvents threadId).length - afterSeq) := by
    simp [next]
  rw [map_take, map_drop, hdense.seqs, drop_range', hlength]
  by_cases hshort : limit ≤ (tables.threadEvents threadId).length - afterSeq
  · rw [take_range'_of_length_ge hshort, Nat.min_eq_left hshort,
      Nat.mul_one, Nat.add_comm]
  · have hlong := Nat.le_of_not_le hshort
    rw [take_range'_of_length_le hlong, Nat.min_eq_right hlong,
      Nat.mul_one, Nat.add_comm]

theorem Dense.lt_threadSeq_of_mem_drop {threadId : String}
    (hevent : event ∈ (tables.threadEvents threadId).drop afterSeq) :
    afterSeq < event.threadSeq := by
  obtain ⟨i, hi, rfl⟩ := getElem_of_mem hevent
  rw [length_drop] at hi
  rw [getElem_drop, hdense.threadSeq_getElem threadId (by omega)]
  omega

/-- Keeping what is beyond the cursor makes the read right for any unsigned
cursor: one that turns negative in the query reads from the start, and the
comparison then keeps nothing. -/
theorem Dense.eventsAfter_filter (threadId : String) (afterSeq limit : Nat)
    (hlimit : limit < 2 ^ 63) :
    ((tables.eventsAfter threadId afterSeq limit).filter fun event =>
        decide (afterSeq < event.threadSeq)) =
      ((tables.threadEvents threadId).drop afterSeq).take limit := by
  by_cases hcursor : afterSeq < 2 ^ 63
  · rw [hdense.eventsAfter_eq threadId hcursor hlimit]
    apply filter_eq_self.mpr
    intro event hevent
    exact decide_eq_true
      (hdense.lt_threadSeq_of_mem_drop (mem_of_mem_take hevent))
  · have hlength := hdense.threadEvents_length_lt threadId
    rw [drop_eq_nil_of_le (by omega), take_nil]
    apply filter_eq_nil_iff.mpr
    intro event hevent
    have hle := (hdense.threadSeq_le (mem_of_mem_eventsAfter hevent)).2
    simp only [decide_eq_true_eq]
    omega

end

end EventTables

/-- The tables together with their numbering law: every value of the store
obeys it, so readers never have to assume it. -/
structure EventStore extends EventTables where
  dense : toEventTables.Dense

namespace EventStore

def empty : EventStore := ⟨.empty, EventTables.dense_empty⟩

def ensureThread (store : EventStore) (threadId : String)
    (cwd : Option String) (status : ThreadRuntimeStatus) : EventStore :=
  ⟨store.toEventTables.ensureThreadOn threadId cwd status,
    EventTables.dense_ensureThreadOn store.dense threadId cwd status⟩

def updateThreadProjection (store : EventStore) (threadId : String)
    (update : ThreadProjectionUpdate) : EventStore :=
  ⟨(store.toEventTables.updateThreadProjection threadId update).2,
    EventTables.dense_updateThreadProjection store.dense threadId update⟩

def appendEvent (store : EventStore) (threadId : String)
    (upstreamEpoch : Nat) (method : String) (payload : Json)
    (turnId itemId : Option String) (occurredAt : Nat)
    (projection : ThreadProjectionUpdate) :
    Except StoreError (StoredEvent × EventStore) :=
  match happend : store.toEventTables.appendEvent threadId upstreamEpoch method
      payload turnId itemId occurredAt projection with
  | .error error => .error error
  | .ok (event, tables) =>
    .ok (event, ⟨tables, EventTables.dense_appendEvent store.dense happend⟩)

def saveSnapshot (store : EventStore) (snapshot : ThreadSnapshot) :
    Except StoreError EventStore :=
  match hsave : store.toEventTables.saveSnapshot snapshot with
  | .error error => .error error
  | .ok tables =>
    .ok ⟨tables, EventTables.dense_saveSnapshot store.dense hsave⟩

theorem saveSnapshot_ok_iff (store next : EventStore)
    (snapshot : ThreadSnapshot) :
    store.saveSnapshot snapshot = .ok next ↔
      store.toEventTables.saveSnapshot snapshot =
        .ok next.toEventTables := by
  unfold saveSnapshot
  split
  · rename_i error herror
    simp [herror]
  · rename_i tables hok
    obtain ⟨tables', dense'⟩ := next
    simp [hok]

theorem appendEvent_ok_iff (store next : EventStore) (threadId : String)
    (upstreamEpoch : Nat) (method : String) (payload : Json)
    (turnId itemId : Option String) (occurredAt : Nat)
    (projection : ThreadProjectionUpdate) (event : StoredEvent) :
    store.appendEvent threadId upstreamEpoch method payload turnId itemId
        occurredAt projection = .ok (event, next) ↔
      store.toEventTables.appendEvent threadId upstreamEpoch method payload
        turnId itemId occurredAt projection =
          .ok (event, next.toEventTables) := by
  unfold appendEvent
  split
  · rename_i error herror
    simp [herror]
  · rename_i stored tables hok
    obtain ⟨tables', dense'⟩ := next
    simp [hok]

/-- An event is refused only when the row ids have run out. -/
theorem full_of_appendEvent_error {store : EventStore}
    {threadId method : String} {upstreamEpoch occurredAt : Nat} {payload : Json}
    {turnId itemId : Option String} {projection : ThreadProjectionUpdate}
    {error : StoreError}
    (happend : store.appendEvent threadId upstreamEpoch method payload turnId
      itemId occurredAt projection = .error error) :
    2 ^ 63 ≤ store.events.length + 1 := by
  by_contra hroom
  unfold appendEvent at happend
  split at happend
  · rename_i herror
    rw [EventTables.appendEvent, if_neg hroom] at herror
    cases herror
  · cases happend

end EventStore

end Vellum.Broker
