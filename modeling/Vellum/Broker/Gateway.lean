/-
A client connection of the gateway: the thread it is subscribed to, the
receiver on that thread's actor, the one cursor of what has been forwarded, and
everything sent to the client.  The message handlers await the actor's reply in
their middle, so each of them is a begin and a finish.
-/
import Vellum.Library.Broadcast
import Vellum.Broker.ThreadActor

namespace Vellum.Broker

open List

/-- What a connection sends to its client. -/
inductive Outbound where
  | welcome
  | snapshot (snapshot : ThreadSnapshot)
  | threadEvent (event : ThreadEvent)
  | commandResult (result : ThreadCommandResult)
  | approvalPending (approval : PendingApproval)
deriving DecidableEq

/-- The capacity of an actor's broadcast channel. -/
def channelCapacity : Nat := 512

structure Connection where
  subscribedThread : Option String
  actorEvents : Option Receiver
  lastForwardedSeq : Nat
  outbox : List Outbound

namespace Connection

def new : Connection := ⟨none, none, 0, []⟩

variable (connection : Connection) (attach : ThreadActor.AttachResult)

/-- Send an event if it is beyond the cursor, and move the cursor. -/
def forward (event : ThreadEvent) : Connection :=
  if connection.lastForwardedSeq < event.seq then
    { connection with
      lastForwardedSeq := event.seq
      outbox := connection.outbox ++ [.threadEvent event] }
  else connection

def forwardReplay (replay : List ThreadEvent) : Connection :=
  replay.foldl forward connection

/-- `client.hello` with a resume cursor, up to the attach. -/
def beginHello (resume : ResumeHint) (receiver : Receiver) : Connection :=
  { connection with
    subscribedThread := some resume.threadId
    actorEvents := some receiver
    lastForwardedSeq := resume.lastAckSeq
    outbox := connection.outbox ++ [.welcome] }

/-- The rest of `client.hello`: the replay is sent, the snapshot is not. -/
def finishHello : Connection :=
  connection.forwardReplay attach.replay

def beginSubscribe (subscribe : ThreadSubscribe) (receiver : Receiver) :
    Connection :=
  { connection with
    subscribedThread := some subscribe.threadId
    actorEvents := some receiver
    lastForwardedSeq := subscribe.lastAckSeq }

/-- The rest of `thread.subscribe`: snapshot, then replay. -/
def finishSubscribe : Connection :=
  let connection : Connection :=
    { connection with
      lastForwardedSeq :=
        max connection.lastForwardedSeq attach.snapshot.snapshotSeq
      outbox := connection.outbox ++ [.snapshot attach.snapshot] }
  connection.forwardReplay attach.replay

/-- A `thread.command` for a thread: the receiver is replaced and the cursor
stays. -/
def beginCommand (threadId : String) (receiver : Receiver) : Connection :=
  { connection with
    subscribedThread := some threadId
    actorEvents := some receiver }

def finishCommand (result : ThreadCommandResult) : Connection :=
  { connection with outbox := connection.outbox ++ [.commandResult result] }

/-- A message of the receiver: `should_forward_actor_event` compares only
thread events with the cursor. -/
def receive : ActorEvent → Connection
  | .threadEvent event => connection.forward event
  | .commandResult result =>
    { connection with outbox := connection.outbox ++ [.commandResult result] }
  | .approvalPending approval =>
    { connection with
      outbox := connection.outbox ++ [.approvalPending approval] }

/-- The thread a command goes to: `thread.resume` names it itself, any other
command may name it and else goes to the subscribed thread; `thread.start` is
not sent to an actor. -/
def commandThread (request : ThreadCommandRequest) : Option String :=
  match request.command with
  | .threadStart .. => none
  | .threadResume threadId => some threadId
  | _ => request.threadId.or connection.subscribedThread

variable (connection : Connection)

@[simp]
theorem forwardReplay_nil : connection.forwardReplay [] = connection := rfl

@[simp]
theorem forwardReplay_cons (event : ThreadEvent) (rest : List ThreadEvent) :
    connection.forwardReplay (event :: rest) =
      (connection.forward event).forwardReplay rest := rfl

theorem lastForwardedSeq_le_forward (event : ThreadEvent) :
    connection.lastForwardedSeq ≤
      (connection.forward event).lastForwardedSeq := by
  unfold forward
  split
  · exact Nat.le_of_lt ‹_›
  · exact Nat.le_refl _

/-- A replay adds events of its own and nothing else. -/
theorem mem_outbox_forwardReplay {connection : Connection}
    {replay : List ThreadEvent} {message : Outbound}
    (hmem : message ∈ (connection.forwardReplay replay).outbox) :
    message ∈ connection.outbox ∨
      ∃ event ∈ replay, message = .threadEvent event := by
  induction replay generalizing connection with
  | nil => exact Or.inl hmem
  | cons event rest ih =>
    rcases ih hmem with hold | ⟨other, hother, heq⟩
    · unfold forward at hold
      split at hold
      · rcases mem_append.mp hold with hout | hnew
        · exact Or.inl hout
        · exact Or.inr ⟨event, mem_cons_self,
            mem_singleton.mp hnew⟩
      · exact Or.inl hold
    · exact Or.inr ⟨other, mem_cons_of_mem event hother, heq⟩

/-- Events at or below the cursor can be left out of a replay. -/
theorem forwardReplay_filter (replay : List ThreadEvent) (seq : Nat)
    (hseq : seq ≤ connection.lastForwardedSeq) :
    connection.forwardReplay replay =
      connection.forwardReplay (replay.filter fun event =>
        decide (seq < event.seq)) := by
  induction replay generalizing connection with
  | nil => rfl
  | cons event rest ih =>
    by_cases hbeyond : seq < event.seq
    · rw [filter_cons_of_pos (by simpa using hbeyond),
        forwardReplay_cons, forwardReplay_cons]
      exact ih _ (Nat.le_trans hseq
        (lastForwardedSeq_le_forward connection event))
    · have hskip : connection.forward event = connection := by
        rw [forward, if_neg (by omega)]
      rw [filter_cons_of_neg (by simpa using hbeyond),
        forwardReplay_cons, hskip]
      exact ih connection hseq

/-- A replay that continues the cursor is sent whole. -/
theorem forwardReplay_consecutive (replay : List ThreadEvent)
    (hseqs : replay.map ThreadEvent.seq =
      List.range' (connection.lastForwardedSeq + 1) replay.length) :
    connection.forwardReplay replay =
      { connection with
        lastForwardedSeq := connection.lastForwardedSeq + replay.length
        outbox := connection.outbox ++ replay.map .threadEvent } := by
  induction replay generalizing connection with
  | nil => simp
  | cons event rest ih =>
    rw [length_cons, List.range'_succ, map_cons,
      List.cons.injEq] at hseqs
    obtain ⟨hhead, htail⟩ := hseqs
    have hforward : connection.forward event =
        { connection with
          lastForwardedSeq := event.seq
          outbox := connection.outbox ++ [.threadEvent event] } := by
      rw [forward, if_pos (by omega)]
    rw [forwardReplay_cons, hforward]
    have hrest := ih { connection with
      lastForwardedSeq := event.seq
      outbox := connection.outbox ++ [.threadEvent event] }
      (by simpa [hhead] using htail)
    have hcount : connection.lastForwardedSeq + 1 + rest.length =
        connection.lastForwardedSeq + (rest.length + 1) := by omega
    rw [hrest]
    simp [hhead, hcount]

/-- What a replay read from a cursor holds beyond it: the next events of the
log, up to the limit. -/
theorem replay_filter (store : EventStore) (threadId : String) (cursor : Nat) :
    ((store.eventsAfter threadId cursor ThreadActor.replayLimit).map
        StoredEvent.intoProtocol).filter (fun event =>
          decide (cursor < event.seq)) =
      (((store.threadEvents threadId).drop cursor).take
        ThreadActor.replayLimit).map StoredEvent.intoProtocol := by
  have hbeyond : ((fun event : ThreadEvent => decide (cursor < event.seq)) ∘
      StoredEvent.intoProtocol) = fun stored =>
        decide (cursor < stored.threadSeq) := rfl
  rw [filter_map, hbeyond, store.dense.eventsAfter_filter threadId _ _
    (by decide)]

/-- Those events are numbered from the cursor on. -/
theorem seqs_replay (store : EventStore) (threadId : String) (cursor : Nat) :
    let next := (((store.threadEvents threadId).drop cursor).take
      ThreadActor.replayLimit).map StoredEvent.intoProtocol
    next.map ThreadEvent.seq = List.range' (cursor + 1) next.length := by
  intro next
  rw [map_map, length_map]
  exact store.dense.seqs_take_drop threadId _ _

/-- A replay read from the cursor sends the log from there on, up to the
limit. -/
theorem forwardReplay_eventsAfter (connection : Connection)
    (store : EventStore) (threadId : String) :
    let next := ((store.threadEvents threadId).drop
      connection.lastForwardedSeq).take ThreadActor.replayLimit
    connection.forwardReplay ((store.eventsAfter threadId
        connection.lastForwardedSeq ThreadActor.replayLimit).map
          StoredEvent.intoProtocol) =
      { connection with
        lastForwardedSeq := connection.lastForwardedSeq + next.length
        outbox := connection.outbox ++
          next.map fun stored => .threadEvent stored.intoProtocol } := by
  intro next
  rw [forwardReplay_filter connection _ connection.lastForwardedSeq
    (Nat.le_refl _), replay_filter, forwardReplay_consecutive connection _
    (seqs_replay store threadId _)]
  simp [next, Function.comp_def]

end Connection

namespace ThreadActor

/-- The number of the snapshot `attach` serves: that of the newest servable
stored snapshot, capped to the log, or else of the whole log. -/
def servedSeq (store : EventTables) (threadId : String) (reads : AttachReads) :
    Nat :=
  let latestSeq := if reads.latestSeqFails then 0 else store.latestSeq threadId
  match if reads.snapshotFails then none
    else (store.latestSnapshot threadId).filter servable with
  | some snapshot => min snapshot.snapshotSeq latestSeq
  | none => latestSeq

theorem attach_snapshot_threadId (actor : ThreadActor) (store : EventTables)
    (lastAckSeq : Nat) (reads : AttachReads) :
    (actor.attach store lastAckSeq reads).2.snapshot.threadId =
      actor.threadId := by
  have hhydrated := actor.attachMemory_threadId store
  simp only [attach, hhydrated, capSnapshot_threadId, fillSnapshot_threadId]
  cases hstored : (if reads.snapshotFails then none
    else (store.latestSnapshot actor.threadId).filter servable) with
  | none => exact hhydrated
  | some snapshot =>
    split at hstored
    · cases hstored
    · obtain ⟨hlatest, -⟩ := Option.filter_eq_some_iff.mp hstored
      exact ((store.latestSnapshot_eq_some_iff _ _).mp hlatest).1.2

theorem attach_result (actor : ThreadActor) (store : EventTables)
    (lastAckSeq : Nat) (reads : AttachReads) :
    let result := (actor.attach store lastAckSeq reads).2
    result.snapshot.snapshotSeq = servedSeq store actor.threadId reads ∧
      result.replay =
        if reads.eventsFail then []
        else (store.eventsAfter actor.threadId
          (max lastAckSeq (servedSeq store actor.threadId reads))
          replayLimit).map StoredEvent.intoProtocol := by
  have hhydrated := actor.attachMemory_threadId store
  intro result
  have hseq : result.snapshot.snapshotSeq =
      servedSeq store actor.threadId reads := by
    simp only [result, attach, hhydrated, servedSeq, capSnapshot_snapshotSeq,
      fillSnapshot_snapshotSeq]
    cases (if reads.snapshotFails then none
      else (store.latestSnapshot actor.threadId).filter servable) with
    | none => simp [currentSnapshot]
    | some snapshot => simp
  refine ⟨hseq, ?_⟩
  have hfrom : (if result.snapshot.snapshotSeq > lastAckSeq then
      result.snapshot.snapshotSeq else lastAckSeq) =
        max lastAckSeq (servedSeq store actor.threadId reads) := by
    rw [hseq]
    split <;> omega
  have hreplay : result.replay = (if reads.eventsFail then []
      else store.eventsAfter actor.threadId
        (if result.snapshot.snapshotSeq > lastAckSeq then
          result.snapshot.snapshotSeq else lastAckSeq)
        replayLimit).map StoredEvent.intoProtocol := by
    simp only [result, attach, hhydrated]
  rw [hreplay, hfrom]
  split <;> rfl

theorem attachClient_result (actor : ThreadActor) (store : EventTables)
    (deviceId : String) (mode : SubscriptionMode) (lastAckSeq : Nat)
    (reads : AttachReads) :
    let result := (actor.attachClient store deviceId mode lastAckSeq reads).2
    result.snapshot.snapshotSeq = servedSeq store actor.threadId reads ∧
      result.replay =
        if reads.eventsFail then []
        else (store.eventsAfter actor.threadId
          (max lastAckSeq (servedSeq store actor.threadId reads))
          replayLimit).map StoredEvent.intoProtocol :=
  attach_result _ store lastAckSeq reads

end ThreadActor

end Vellum.Broker
