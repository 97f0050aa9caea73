/-
The event log over whole runs of the store.  Appends, thread rows, projections,
epochs, snapshots and acknowledgements are applied in any order; the numbering
of every thread survives all of them, and a read after a cursor returns the
next stretch of the log for every cursor that the query does not turn negative.
-/
import Vellum.Broker.EventStore

namespace Vellum.Broker

open List

/-- A row of `client_thread_acks`. -/
structure ThreadAck where
  deviceId : String
  threadId : String
  throughSeq : Int

abbrev AckTable :=
  KeyedTable fun ack : ThreadAck => (ack.deviceId, ack.threadId)

/-- The `DO UPDATE` of `set_ack`: an acknowledgement never goes back. -/
def ThreadAck.advance (throughSeq : Int) (ack : ThreadAck) : ThreadAck :=
  { ack with
    throughSeq :=
      if throughSeq > ack.throughSeq then throughSeq else ack.throughSeq }

def setAck (acks : AckTable) (deviceId threadId : String)
    (throughSeq : Nat) : AckTable :=
  acks.upsert ⟨deviceId, threadId, asI64 throughSeq⟩
    (ThreadAck.advance (asI64 throughSeq))

namespace EventTables

private theorem bmod_neg_of_le {value modulus : Nat}
    (hlow : modulus ≤ 2 * value) (hhigh : value < modulus) :
    Int.bmod value modulus < 0 := by
  have hmod : (value : Int) % modulus = value :=
    Int.emod_eq_of_lt (Int.natCast_nonneg _) (Int.ofNat_lt.mpr hhigh)
  rw [Int.bmod_def, hmod]
  split <;> omega

theorem asI64_neg (value : UInt64) (hlow : ¬ value.toNat < 2 ^ 63) :
    asI64 value.toNat < 0 :=
  bmod_neg_of_le (by omega) value.toNat_lt

/-- The events numbered from just after `afterSeq` up to `afterSeq + limit`, in
the order of the log. -/
def stretch (tables : EventTables) (threadId : String)
    (afterSeq limit : Nat) : List StoredEvent :=
  (tables.threadEvents threadId).filter fun event =>
    afterSeq < event.threadSeq ∧ event.threadSeq ≤ afterSeq + limit

private theorem filter_le_eq_take (events : List StoredEvent)
    (start limit : Nat)
    (hseqs : events.map StoredEvent.threadSeq =
      List.range' (start + 1) events.length) :
    (events.filter fun event => decide (event.threadSeq ≤ start + limit)) =
      events.take limit := by
  induction events generalizing start limit with
  | nil => simp
  | cons event rest ih =>
    rw [length_cons, List.range'_succ, map_cons,
      List.cons.injEq] at hseqs
    obtain ⟨hhead, htail⟩ := hseqs
    cases limit with
    | zero =>
      rw [take_zero, filter_eq_nil_iff]
      intro other hother
      have hmem : other.threadSeq ∈
          (event :: rest).map StoredEvent.threadSeq :=
        mem_map_of_mem hother
      rw [map_cons, hhead, htail, mem_cons,
        mem_range'_1] at hmem
      rw [decide_eq_true_eq]
      omega
    | succ n =>
      have hfirst : event.threadSeq ≤ start + (n + 1) := by omega
      rw [filter_cons_of_pos (by simpa using hfirst),
        take_succ_cons, ← ih (start + 1) n htail]
      rw [Nat.add_right_comm, Nat.add_assoc]

/-- The stretch is what lies between the cursor and the limit. -/
theorem Dense.stretch_eq {tables : EventTables} (hdense : tables.Dense)
    (threadId : String) (afterSeq limit : Nat) :
    tables.stretch threadId afterSeq limit =
      ((tables.threadEvents threadId).drop afterSeq).take limit := by
  have hlength : ((tables.threadEvents threadId).drop afterSeq).take
      (tables.threadEvents threadId).length =
        (tables.threadEvents threadId).drop afterSeq := by
    apply take_of_length_le
    rw [length_drop]
    exact Nat.sub_le _ _
  have hseqs := hdense.seqs_take_drop threadId afterSeq
    (tables.threadEvents threadId).length
  simp only [hlength] at hseqs
  rw [← filter_le_eq_take _ _ _ hseqs, ← hdense.filter_cursor, stretch,
    filter_filter]
  apply filter_congr
  intro event _
  rw [Bool.decide_and, Bool.and_comm]

/-- `LIMIT` keeps the first rows, also where the limit turns negative: there
are fewer rows than that. -/
theorem limitRows_asI64 {events : List StoredEvent} (limit : UInt64)
    (hlength : events.length < 2 ^ 63) :
    limitRows (asI64 limit.toNat) events = events.take limit.toNat := by
  by_cases hlimit : limit.toNat < 2 ^ 63
  · rw [limitRows, asI64_of_lt hlimit, if_neg (by omega), Int.toNat_natCast]
  · have hnegative := asI64_neg limit hlimit
    have hle : events.length ≤ limit.toNat := by omega
    rw [limitRows, if_pos hnegative, take_of_length_le hle]

/-- A read after a cursor returns the stretch after it exactly when the cursor
does not turn negative in the query, or there is nothing to return. -/
theorem Dense.eventsAfter_eq_stretch_iff {tables : EventTables}
    (hdense : tables.Dense) (threadId : String) (afterSeq limit : UInt64) :
    tables.eventsAfter threadId afterSeq.toNat limit.toNat =
        tables.stretch threadId afterSeq.toNat limit.toNat ↔
      afterSeq.toNat < 2 ^ 63 ∨
        (tables.threadEvents threadId).length = 0 ∨ limit = 0 := by
  have hlength := hdense.threadEvents_length_lt threadId
  rw [hdense.stretch_eq, eventsAfter, hdense.orderBySeq_filter,
    limitRows_asI64 limit (Nat.lt_of_le_of_lt (length_filter_le _ _)
      hlength)]
  by_cases hcursor : afterSeq.toNat < 2 ^ 63
  · simp only [hcursor, true_or, asI64_of_lt hcursor,
      Int.ofNat_lt, hdense.filter_cursor]
  · have hnegative := asI64_neg afterSeq hcursor
    -- the negative cursor lets every row through
    have hall : ((tables.threadEvents threadId).filter fun event =>
        decide (asI64 afterSeq.toNat < event.threadSeq)) =
          tables.threadEvents threadId := by
      apply filter_eq_self.mpr
      intro event _
      rw [decide_eq_true_eq]
      omega
    have hle : (tables.threadEvents threadId).length ≤ afterSeq.toNat := by
      omega
    rw [hall, drop_eq_nil_of_le hle, take_nil,
      take_eq_nil_iff, length_eq_zero_iff]
    have hzero : limit.toNat = 0 ↔ limit = 0 := by
      rw [← UInt64.toNat_inj]
      rfl
    rw [hzero, or_comm]
    constructor
    · exact Or.inr
    · intro hcases
      exact hcases.resolve_left hcursor

end EventTables

/-- The tables of the event store together with the acknowledgements. -/
structure LogState where
  tables : EventTables
  acks : AckTable

namespace LogState

def start : LogState := ⟨.empty, .empty⟩

/-- The operations that write to the log, to the row of a thread, or to the
tables beside them. -/
inductive Operation where
  | ensureEpoch (epoch : Nat)
  | ensureThread (threadId : String) (cwd : Option String)
      (status : ThreadRuntimeStatus)
  | updateThreadProjection (threadId : String)
      (update : ThreadProjectionUpdate)
  | appendEvent (threadId : String) (upstreamEpoch : Nat) (method : String)
      (payload : Json) (turnId itemId : Option String) (occurredAt : Nat)
      (projection : ThreadProjectionUpdate)
  | saveSnapshot (snapshot : ThreadSnapshot)
  | setAck (deviceId threadId : String) (throughSeq : Nat)

/-- One operation.  A transaction that fails leaves the tables as they were. -/
def apply (state : LogState) : Operation → LogState
  | .ensureEpoch epoch =>
    { state with tables := state.tables.ensureEpoch epoch }
  | .ensureThread threadId cwd status =>
    { state with tables := state.tables.ensureThreadOn threadId cwd status }
  | .updateThreadProjection threadId update =>
    { state with
      tables := (state.tables.updateThreadProjection threadId update).2 }
  | .appendEvent threadId upstreamEpoch method payload turnId itemId occurredAt
      projection =>
      match state.tables.appendEvent threadId upstreamEpoch method payload
          turnId itemId occurredAt projection with
      | .ok (_, tables) => { state with tables }
      | .error _ => state
  | .saveSnapshot snapshot =>
    match state.tables.saveSnapshot snapshot with
    | .ok tables => { state with tables }
    | .error _ => state
  | .setAck deviceId threadId throughSeq =>
    { state with
      acks := Broker.setAck state.acks deviceId threadId throughSeq }

/-- The state after a run of operations. -/
def run (state : LogState) (operations : List Operation) : LogState :=
  operations.foldl apply state

/-- Whether the operation appends an event to the thread. -/
def Operation.appendsTo (threadId : String) : Operation → Bool
  | .appendEvent other .. => other = threadId
  | _ => false

theorem dense_apply {state : LogState} (hdense : state.tables.Dense)
    (operation : Operation) : (state.apply operation).tables.Dense := by
  cases operation with
  | ensureEpoch epoch => exact EventTables.dense_ensureEpoch hdense epoch
  | ensureThread threadId cwd status =>
    exact EventTables.dense_ensureThreadOn hdense threadId cwd status
  | updateThreadProjection threadId update =>
    exact EventTables.dense_updateThreadProjection hdense threadId update
  | appendEvent =>
    simp only [apply]
    split
    · rename_i happend
      exact EventTables.dense_appendEvent hdense happend
    · exact hdense
  | saveSnapshot snapshot =>
    simp only [apply]
    split
    · rename_i hsave
      exact EventTables.dense_saveSnapshot hdense hsave
    · exact hdense
  | setAck => exact hdense

theorem dense_run {state : LogState} (hdense : state.tables.Dense)
    (operations : List Operation) : (state.run operations).tables.Dense := by
  induction operations generalizing state with
  | nil => exact hdense
  | cons operation rest ih => exact ih (dense_apply hdense operation)

theorem threadEvents_apply (state : LogState) {operation : Operation}
    {threadId : String} (hother : operation.appendsTo threadId = false) :
    (state.apply operation).tables.threadEvents threadId =
      state.tables.threadEvents threadId := by
  have hsame : ∀ tables : EventTables, tables.events = state.tables.events →
      tables.threadEvents threadId = state.tables.threadEvents threadId := by
    intro tables hevents
    rw [EventTables.threadEvents, EventTables.threadEvents, hevents]
  cases operation with
  | ensureEpoch epoch =>
    apply hsame
    simp only [apply, EventTables.ensureEpoch]
    split <;> rfl
  | ensureThread => exact hsame _ rfl
  | updateThreadProjection =>
    apply hsame
    simp only [apply, EventTables.updateThreadProjection]
    split <;> rfl
  | appendEvent other =>
    simp only [apply]
    split
    · rename_i event tables happend
      obtain ⟨-, hevent, hevents, -⟩ := EventTables.appendEvent_ok happend
      have hthread : event.threadId ≠ threadId := by
        rw [hevent]
        simpa [Operation.appendsTo] using hother
      rw [EventTables.threadEvents_append hevents, if_neg hthread]
    · rfl
  | saveSnapshot snapshot =>
    simp only [apply]
    split
    · rename_i tables hsave
      apply hsame
      unfold EventTables.saveSnapshot at hsave
      split at hsave
      · rw [Except.ok.injEq] at hsave
        rw [← hsave]
        rfl
      · cases hsave
    · rfl
  | setAck => rfl

/-- In every state that operations lead to, each thread's events are numbered
`1, ..., n` in the order they were appended, `latest_seq` is `n`, a read after
a cursor is the stretch behind it exactly for the cursors the query keeps
non-negative (or where there is nothing to read), and no operation but an
append to the thread itself changes any of this. -/
theorem log_numbered_and_readable (operations : List Operation)
    (threadId : String) :
    let state := start.run operations
    let count := (state.tables.threadEvents threadId).length
    (state.tables.threadEvents threadId).map StoredEvent.threadSeq =
        List.range' 1 count ∧
      state.tables.latestSeq threadId = count ∧
      (∀ afterSeq limit : UInt64,
        state.tables.eventsAfter threadId afterSeq.toNat limit.toNat =
            state.tables.stretch threadId afterSeq.toNat limit.toNat ↔
          afterSeq.toNat < 2 ^ 63 ∨ count = 0 ∨ limit = 0) ∧
      ∀ operation : Operation, operation.appendsTo threadId = false →
        let next := state.apply operation
        next.tables.threadEvents threadId =
            state.tables.threadEvents threadId ∧
          next.tables.latestSeq threadId = state.tables.latestSeq threadId ∧
          ∀ afterSeq limit,
            next.tables.eventsAfter threadId afterSeq limit =
              state.tables.eventsAfter threadId afterSeq limit := by
  intro state count
  have hdense : state.tables.Dense :=
    dense_run EventTables.dense_empty operations
  refine ⟨hdense.seqs threadId, hdense.latestSeq_eq threadId,
    hdense.eventsAfter_eq_stretch_iff threadId, ?_⟩
  intro operation hother next
  have hnext : next.tables.Dense := dense_apply hdense operation
  have hevents := threadEvents_apply state hother
  refine ⟨hevents, ?_, ?_⟩
  · rw [hnext.latestSeq_eq, hdense.latestSeq_eq, hevents]
  · intro afterSeq limit
    rw [EventTables.eventsAfter, EventTables.eventsAfter, hevents]

namespace NegativeCursor

/-- A thread with one event. -/
def operations : List Operation :=
  [.appendEvent "thread-1" 1 "turn/started" .null none none 0
    ⟨.running, true, some (some "turn-1"), none⟩]

/-- A cursor of `2 ^ 63` is far past the end of the log, and the read returns
the first event. -/
theorem cursor_past_end_reads_from_start :
    let tables := (start.run operations).tables
    (tables.threadEvents "thread-1").length = 1 ∧
      (tables.eventsAfter "thread-1" (2 ^ 63) 10).map StoredEvent.threadSeq =
        [1] ∧
      tables.stretch "thread-1" (2 ^ 63) 10 = [] := by
  decide

end NegativeCursor

end LogState

end Vellum.Broker
