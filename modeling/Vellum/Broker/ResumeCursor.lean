/-
Reconnecting through `client.hello` with a resume cursor.  The attach starts
its replay after the snapshot it serves, but the hello path throws the snapshot
away, so what the snapshot stands for is lost to the client unless the cursor
is already beyond it.
-/
import Vellum.Broker.Gateway

namespace Vellum.Broker

open List

/-- The event was sent, or a snapshot that covers it was. -/
def Covered (outbox : List Outbound) (event : ThreadEvent) : Prop :=
  .threadEvent event ∈ outbox ∨
    ∃ snapshot, .snapshot snapshot ∈ outbox ∧
      snapshot.threadId = event.threadId ∧ event.seq ≤ snapshot.snapshotSeq

/-- A new connection after its `client.hello` has been handled.  The store is
the one the actor sees when it attaches the client. -/
def resumeHello (actor : ThreadActor) (store : EventTables)
    (deviceId : String) (lastAckSeq : Nat) (reads : ThreadActor.AttachReads)
    (receiver : Receiver) : Connection :=
  (Connection.new.beginHello ⟨actor.threadId, lastAckSeq⟩ receiver).finishHello
    (actor.attachClient store deviceId .observer lastAckSeq reads).2

/-- The reads of the event and snapshot stores succeed. -/
def ThreadActor.AttachReads.Working (reads : ThreadActor.AttachReads) : Prop :=
  reads.latestSeqFails = false ∧ reads.snapshotFails = false ∧
    reads.eventsFail = false

section

variable (store : EventStore) {reads : ThreadActor.AttachReads}

theorem replay_attachClient (actor : ThreadActor) (store : EventTables)
    (deviceId : String) (mode : SubscriptionMode) (lastAckSeq : Nat)
    (hreads : reads.Working) :
    (actor.attachClient store deviceId mode lastAckSeq reads).2.replay =
      (store.eventsAfter actor.threadId
        (max lastAckSeq (ThreadActor.servedSeq store actor.threadId reads))
        ThreadActor.replayLimit).map StoredEvent.intoProtocol := by
  have hreplay := (actor.attachClient_result store deviceId mode lastAckSeq
    reads).2
  rw [hreads.2.2] at hreplay
  exact hreplay

/-- Only events of the replay are sent. -/
theorem mem_outbox_resumeHello {actor : ThreadActor} {store : EventTables}
    {deviceId : String} {lastAckSeq : Nat} {receiver : Receiver}
    (hreads : reads.Working) {message : Outbound}
    (hmem : message ∈
      (resumeHello actor store deviceId lastAckSeq reads receiver).outbox) :
    message = .welcome ∨
      ∃ stored ∈ store.eventsAfter actor.threadId
          (max lastAckSeq
            (ThreadActor.servedSeq store actor.threadId reads))
          ThreadActor.replayLimit,
        message = .threadEvent stored.intoProtocol := by
  have hreplay := replay_attachClient actor store deviceId .observer lastAckSeq
    hreads
  rcases Connection.mem_outbox_forwardReplay hmem with hold | hsent
  · exact Or.inl (mem_singleton.mp hold)
  · rw [hreplay] at hsent
    obtain ⟨event, hevent, rfl⟩ := hsent
    obtain ⟨stored, hstored, rfl⟩ := mem_map.mp hevent
    exact Or.inr ⟨stored, hstored, rfl⟩

theorem servedSeq_le_length (threadId : String)
    (reads : ThreadActor.AttachReads) :
    ThreadActor.servedSeq store.toEventTables threadId reads ≤
      (store.threadEvents threadId).length := by
  have hlatest : (if reads.latestSeqFails then 0
      else store.latestSeq threadId) ≤
        (store.threadEvents threadId).length := by
    rw [store.dense.latestSeq_eq threadId]
    split
    · exact Nat.zero_le _
    · exact Nat.le_refl _
  unfold ThreadActor.servedSeq
  simp only
  split
  · exact Nat.le_trans (Nat.min_le_right _ _) hlatest
  · exact hlatest

/-- The served number is within the cursor exactly when the log is, or a
servable snapshot is. -/
theorem servedSeq_le_iff (threadId : String) (lastAckSeq : Nat)
    (hreads : reads.Working) :
    ThreadActor.servedSeq store.toEventTables threadId reads ≤ lastAckSeq ↔
      (store.threadEvents threadId).length ≤ lastAckSeq ∨
        ∃ snapshot, (store.latestSnapshot threadId).filter
            ThreadActor.servable = some snapshot ∧
          snapshot.snapshotSeq ≤ lastAckSeq := by
  have hlatest := store.dense.latestSeq_eq threadId
  simp only [ThreadActor.servedSeq, hreads.1, hreads.2.1, Bool.false_eq_true,
    ↓reduceIte]
  cases (store.latestSnapshot threadId).filter ThreadActor.servable with
  | none => simp [hlatest]
  | some snapshot =>
    simp only [hlatest, Option.some.injEq, exists_eq_left']
    omega

/-- With the cursor beyond the served snapshot the hello sends the log from the
cursor on, up to the limit. -/
theorem outbox_resumeHello (actor : ThreadActor) (store : EventStore)
    (deviceId : String) (lastAckSeq : Nat) (receiver : Receiver)
    (hreads : reads.Working)
    (hserved : ThreadActor.servedSeq store.toEventTables actor.threadId reads ≤
      lastAckSeq) :
    (resumeHello actor store.toEventTables deviceId lastAckSeq reads
        receiver).outbox =
      .welcome :: (((store.threadEvents actor.threadId).drop lastAckSeq).take
        ThreadActor.replayLimit).map fun stored =>
          .threadEvent stored.intoProtocol := by
  have hreplay := replay_attachClient actor store.toEventTables deviceId
    .observer lastAckSeq hreads
  rw [Nat.max_eq_left hserved] at hreplay
  have hsent := (Connection.new.beginHello ⟨actor.threadId, lastAckSeq⟩
    receiver).forwardReplay_eventsAfter store actor.threadId
  rw [resumeHello, Connection.finishHello, hreplay]
  exact (congrArg Connection.outbox hsent).trans rfl

end

/-- A client within the replay limit that resumes through `client.hello` gets
everything after its cursor exactly when the cursor has reached the end of the
log, or the newest servable snapshot lies within the cursor. -/
theorem resumeHello_covers_iff (actor : ThreadActor) (store : EventStore)
    (deviceId : String) (lastAckSeq : Nat) (reads : ThreadActor.AttachReads)
    (receiver : Receiver) (hreads : reads.Working)
    (hbehind : (store.threadEvents actor.threadId).length ≤
      lastAckSeq + ThreadActor.replayLimit) :
    (∀ stored ∈ store.threadEvents actor.threadId,
      lastAckSeq < stored.threadSeq →
        Covered (resumeHello actor store.toEventTables deviceId lastAckSeq reads
          receiver).outbox stored.intoProtocol) ↔
      (store.threadEvents actor.threadId).length ≤ lastAckSeq ∨
        ∃ snapshot, (store.latestSnapshot actor.threadId).filter
            ThreadActor.servable = some snapshot ∧
          snapshot.snapshotSeq ≤ lastAckSeq := by
  rw [← servedSeq_le_iff store actor.threadId lastAckSeq hreads]
  constructor
  · intro hcovers
    by_contra hserved
    -- the first event after the cursor is within the log and was not sent
    have hlength := servedSeq_le_length store actor.threadId reads
    have hbound := store.dense.threadEvents_length_lt actor.threadId
    have hindex : lastAckSeq < (store.threadEvents actor.threadId).length := by
      omega
    have hseq := store.dense.threadSeq_getElem actor.threadId hindex
    have hcovered := hcovers _ (getElem_mem hindex) (by omega)
    have hreplayed : ∀ other ∈ store.eventsAfter actor.threadId
        (max lastAckSeq
          (ThreadActor.servedSeq store.toEventTables actor.threadId reads))
        ThreadActor.replayLimit, lastAckSeq + 1 < other.threadSeq := by
      intro other hother
      rw [store.dense.eventsAfter_eq actor.threadId (by omega) (by decide)]
        at hother
      have hbeyond := store.dense.lt_threadSeq_of_mem_drop
        (mem_of_mem_take hother)
      omega
    rcases hcovered with hsent | ⟨snapshot, hsent, -, -⟩
    · rcases mem_outbox_resumeHello hreads hsent with hwelcome | hevent
      · cases hwelcome
      · obtain ⟨other, hother, heq⟩ := hevent
        rw [Outbound.threadEvent.injEq] at heq
        have hsame : (store.threadEvents actor.threadId)[lastAckSeq].threadSeq =
            other.threadSeq := congrArg ThreadEvent.seq heq
        have hbeyond := hreplayed other hother
        omega
    · rcases mem_outbox_resumeHello hreads hsent with hwelcome | hevent
      · cases hwelcome
      · obtain ⟨other, -, heq⟩ := hevent
        cases heq
  · intro hserved stored hstored hbeyond
    refine Or.inl ?_
    rw [outbox_resumeHello actor store deviceId lastAckSeq receiver hreads
      hserved]
    refine mem_cons_of_mem _ (mem_map.mpr ⟨stored, ?_, rfl⟩)
    rw [take_of_length_le (by rw [length_drop]; omega)]
    obtain ⟨i, hi, rfl⟩ := getElem_of_mem hstored
    rw [store.dense.threadSeq_getElem actor.threadId hi] at hbeyond
    exact mem_drop_iff_getElem.mpr ⟨i - lastAckSeq, by omega, by
      congr 1
      omega⟩

namespace FinishedTurn

def ingest (state : ThreadActor × EventStore) (method : String) :
    ThreadActor × EventStore :=
  let ingested := state.1.ingestUpstreamEvent state.2 1 method
    (.obj [("turnId", .str "turn-1")]) 0 (some ([], none))
  (ingested.actor, ingested.store)

/-- A turn has run and ended, which left a snapshot of both its events. -/
def finished : ThreadActor × EventStore :=
  ingest (ingest (.spawn "thread-1", .empty) "turn/started") "turn/completed"

def reads : ThreadActor.AttachReads := ⟨[], none, false, false, false⟩

/-- A client that was away for the whole turn resumes from the start: it is
welcomed and sent neither the events nor the snapshot. -/
theorem resumeHello_misses_turn :
    let connection := resumeHello finished.1 finished.2.toEventTables "phone" 0
      reads ⟨0⟩
    (finished.2.threadEvents "thread-1").map StoredEvent.threadSeq = [1, 2] ∧
      connection.outbox = [.welcome] ∧
      ¬ ∀ stored ∈ finished.2.threadEvents "thread-1", 0 < stored.threadSeq →
        Covered connection.outbox stored.intoProtocol := by
  have houtbox : (resumeHello finished.1 finished.2.toEventTables "phone" 0
      reads ⟨0⟩).outbox = [.welcome] := by decide
  have hseqs : (finished.2.threadEvents "thread-1").map StoredEvent.threadSeq =
      [1, 2] := by decide
  refine ⟨hseqs, houtbox, fun hcovers => ?_⟩
  have hfirst : (1 : Nat) ∈
      (finished.2.threadEvents "thread-1").map StoredEvent.threadSeq := by
    rw [hseqs]
    decide
  obtain ⟨stored, hstored, hone⟩ := mem_map.mp hfirst
  have hcovered := hcovers stored hstored (by omega)
  simp [Covered, houtbox] at hcovered

/-- A client that had seen the whole turn is sent the start of the next. -/
theorem resumeHello_covers_next_turn :
    let next := ingest finished "turn/started"
    ∀ stored ∈ next.2.threadEvents next.1.threadId, 2 < stored.threadSeq →
      Covered (resumeHello next.1 next.2.toEventTables "phone" 2 reads
        ⟨0⟩).outbox stored.intoProtocol :=
  (resumeHello_covers_iff (ingest finished "turn/started").1
    (ingest finished "turn/started").2 "phone" 2 reads ⟨0⟩ ⟨rfl, rfl, rfl⟩
    (by decide)).mpr (Or.inr (by decide))

end FinishedTurn

end Vellum.Broker
