/-
An actor with its broadcast channel.  The actor appends an event to the log
before it broadcasts it, and others act in between, so a receiver always has
the rest of the log ahead of it: in the channel, or about to be broadcast.
-/
import Vellum.Library.Broadcast
import Vellum.Broker.ActorLoop
import Vellum.Broker.DurableRow

namespace Vellum.Broker

open List

/-- The number a broadcast message carries, if it is a thread event. -/
def ActorEvent.eventSeq : ActorEvent → Option Nat
  | .threadEvent event => some event.seq
  | .commandResult _ | .approvalPending _ => none

namespace ThreadActor

/-- How many events the store holds of the actor's thread. -/
def logLength (actor : ThreadActor) (store : EventTables) : Nat :=
  (store.threadEvents actor.threadId).length

theorem logLength_of_events {actor : ThreadActor} {store next : EventTables}
    (hevents : next.events = store.events) :
    actor.logLength next = actor.logLength store := by
  rw [logLength, logLength, EventTables.threadEvents, EventTables.threadEvents,
    hevents]

theorem QuietWrite.events {actor : ThreadActor} {store next : EventStore}
    (hwrite : actor.QuietWrite store next) : next.events = store.events := by
  cases hwrite with
  | nothing => rfl
  | projection => exact persistProjection_events _ _ _ _
  | snapshot => exact persistSnapshot_events _ _ _
  | both => rw [persistSnapshot_events, persistProjection_events]

theorem handle_broadcast (digest : Json → String) (actor : ThreadActor)
    (store : EventStore) (message : ThreadActorMessage) :
    let handled := actor.handle digest store message
    let count := actor.logLength store.toEventTables
    let countAfter := actor.logLength handled.store.toEventTables
    count ≤ countAfter ∧
      handled.broadcast.toList.filterMap ActorEvent.eventSeq =
        List.range' (count + 1) (countAfter - count) := by
  intro handled count countAfter
  -- all but the stored events leave the log and broadcast no event
  have hquiet : handled.store.events = store.events →
      (∀ event, handled.broadcast ≠ some (.threadEvent event)) →
      count ≤ countAfter ∧
        handled.broadcast.toList.filterMap ActorEvent.eventSeq =
          List.range' (count + 1) (countAfter - count) := by
    intro hevents hsilent
    have hsame : countAfter = count := logLength_of_events hevents
    have hnone :
        handled.broadcast.toList.filterMap ActorEvent.eventSeq = [] := by
      cases hbroadcast : handled.broadcast with
      | none => rfl
      | some event =>
        cases event with
        | threadEvent event => exact absurd hbroadcast (hsilent event)
        | commandResult | approvalPending => rfl
    rw [hsame, hnone]
    simp
  have hother : (∀ epoch method payload now reads,
      message ≠ .upstreamEvent epoch method payload now reads) →
      count ≤ countAfter ∧
        handled.broadcast.toList.filterMap ActorEvent.eventSeq =
          List.range' (count + 1) (countAfter - count) := by
    intro hmessage
    obtain ⟨hwrite, hsilent⟩ := actor.handle_quiet digest store hmessage
    exact hquiet hwrite.events hsilent
  cases message with
  | upstreamEvent epoch method payload now reads =>
    rcases ingestUpstreamEvent_cases actor store epoch method payload now
      reads with ⟨-, hlost⟩ | ⟨stored, next, happend, hactor, hevent, hstore⟩
    · apply hquiet <;> simp [handled, handle, hlost]
    · obtain ⟨-, hstored, hevents, -⟩ := EventTables.appendEvent_ok happend
      have hlog : handled.store.events = store.events ++ [stored] := by
        rw [← hevents]
        simp only [handled, handle, hstore]
        split
        · exact persistSnapshot_events _ _ _
        · rfl
      have hcount : countAfter = count + 1 := by
        simp only [countAfter, count, logLength]
        rw [EventTables.threadEvents_append hlog, hstored, if_pos rfl]
        simp
      have hseq : stored.threadSeq = count + 1 := by
        rw [hstored, store.dense.maxThreadSeq_eq]
        rfl
      have hsent : handled.broadcast =
          some (.threadEvent stored.intoProtocol) := by
        simp [handled, handle, hevent]
      rw [hcount, hsent]
      simp [ActorEvent.eventSeq, StoredEvent.intoProtocol, hseq]
  | _ => exact hother (by rintro _ _ _ _ _ ⟨⟩)

end ThreadActor

/-- An actor, its channel, and the envelope it has built and not yet
broadcast. -/
structure ThreadHost where
  actor : ThreadActor
  channel : Broadcast ActorEvent
  unsent : Option ActorEvent

namespace ThreadHost

def spawn (threadId : String) : ThreadHost := ⟨.spawn threadId, .new, none⟩

/-- The actor handles a message, unless it still has to broadcast. -/
def act (digest : Json → String) (host : ThreadHost) (store : EventStore)
    (message : ThreadActorMessage) :
    Option (ThreadHost × EventStore × ActorReply) :=
  match host.unsent with
  | some _ => none
  | none =>
    let handled := host.actor.handle digest store message
    some ({ host with actor := handled.actor, unsent := handled.broadcast },
      handled.store, handled.reply)

/-- How many messages are broadcast once the unsent one is. -/
def due (host : ThreadHost) : Nat :=
  host.channel.sent.length + host.unsent.toList.length

def broadcast (host : ThreadHost) : Option ThreadHost :=
  host.unsent.map fun event =>
    { host with channel := host.channel.send event, unsent := none }

variable {host : ThreadHost} {store : EventTables} {next : ThreadHost}
  {receiver : Receiver} {seen : Nat}

theorem act_eq_some {digest : Json → String} {store nextStore : EventStore}
    {message : ThreadActorMessage} {reply : ActorReply}
    (hact : host.act digest store message = some (next, nextStore, reply)) :
    let handled := host.actor.handle digest store message
    host.unsent = none ∧
      next = { host with actor := handled.actor,
                         unsent := handled.broadcast } ∧
      nextStore = handled.store ∧ reply = handled.reply := by
  unfold act at hact
  split at hact
  · cases hact
  · rename_i hunsent
    simp only [Option.some.injEq, Prod.mk.injEq] at hact
    exact ⟨hunsent, hact.1.symm, hact.2.1.symm, hact.2.2.symm⟩

/-- The messages a receiver has still to get, broadcast or not. -/
def ahead (host : ThreadHost) (receiver : Receiver) : List ActorEvent :=
  host.channel.pending receiver ++ host.unsent.toList

/-- The receiver has got, or skipped, the first `seen` events of the log and
has all the others ahead of it. -/
structure Feeds (host : ThreadHost) (store : EventTables) (receiver : Receiver)
    (seen : Nat) : Prop where
  within : receiver.next ≤ host.channel.sent.length
  bounded : seen ≤ host.actor.logLength store
  ahead : (host.ahead receiver).filterMap ActorEvent.eventSeq =
    List.range' (seen + 1) (host.actor.logLength store - seen)

theorem feeds_spawn (threadId : String) (store : EventTables) :
    ∃ seen, (spawn threadId).Feeds store (spawn threadId).channel.subscribe
      seen := by
  refine ⟨(spawn threadId).actor.logLength store, Nat.le_refl _,
    Nat.le_refl _, ?_⟩
  simp [ahead, spawn]

/-- The actor puts the events it appends ahead of every receiver. -/
theorem Feeds.act {store nextStore : EventStore}
    (hfeeds : host.Feeds store.toEventTables receiver seen)
    {digest : Json → String} {message : ThreadActorMessage} {reply : ActorReply}
    (hact : host.act digest store message = some (next, nextStore, reply)) :
    next.Feeds nextStore.toEventTables receiver seen := by
  obtain ⟨hunsent, rfl, rfl, -⟩ := act_eq_some hact
  obtain ⟨hgrows, hbroadcast⟩ :=
    host.actor.handle_broadcast digest store message
  have hthread := host.actor.handle_threadId digest store message
  have hlength : (host.actor.handle digest store message).actor.logLength
      (host.actor.handle digest store message).store.toEventTables =
        host.actor.logLength
          (host.actor.handle digest store message).store.toEventTables := by
    rw [ThreadActor.logLength, hthread]
    rfl
  have hbounded := hfeeds.bounded
  have hahead := hfeeds.ahead
  rw [ThreadHost.ahead, hunsent, Option.toList_none, append_nil]
    at hahead
  refine ⟨hfeeds.within, ?_, ?_⟩
  · rw [hlength]
    exact Nat.le_trans hbounded hgrows
  · have hjoin : host.actor.logLength store.toEventTables + 1 =
        seen + 1 + (host.actor.logLength store.toEventTables - seen) := by
      omega
    have htotal : host.actor.logLength store.toEventTables - seen +
        (host.actor.logLength (host.actor.handle digest store
            message).store.toEventTables -
          host.actor.logLength store.toEventTables) =
        host.actor.logLength (host.actor.handle digest store
          message).store.toEventTables - seen := by omega
    rw [hlength, ThreadHost.ahead, filterMap_append, hahead, hbroadcast,
      hjoin, List.range'_append_1, htotal]

section

variable (hfeeds : host.Feeds store receiver seen)
include hfeeds

theorem Feeds.broadcast (hbroadcast : host.broadcast = some next) :
    next.Feeds store receiver seen := by
  obtain ⟨event, hunsent, rfl⟩ := Option.map_eq_some_iff.mp hbroadcast
  have hahead := hfeeds.ahead
  have hsent := host.channel.pending_send receiver event hfeeds.within
  refine ⟨?_, hfeeds.bounded, ?_⟩
  · simp only [Broadcast.send, length_append]
    exact Nat.le_add_right_of_le hfeeds.within
  · simp only [ThreadHost.ahead, hunsent, hsent] at hahead ⊢
    simpa using hahead

theorem Feeds.of_threadEvents {next : EventTables}
    (hsame : next.threadEvents host.actor.threadId =
      store.threadEvents host.actor.threadId) :
    host.Feeds next receiver seen := by
  have hlength : host.actor.logLength next = host.actor.logLength store := by
    rw [ThreadActor.logLength, ThreadActor.logLength, hsame]
  refine ⟨hfeeds.within, ?_, ?_⟩
  · rw [hlength]
    exact hfeeds.bounded
  · rw [hlength]
    exact hfeeds.ahead

/-- A new receiver in place of an old one skips the events the old one had
pending. -/
theorem Feeds.resubscribe :
    ∃ skipped, (host.channel.pending receiver).filterMap ActorEvent.eventSeq =
        List.range' (seen + 1) skipped ∧
      host.Feeds store host.channel.subscribe (seen + skipped) := by
  have hahead := hfeeds.ahead
  have hbounded := hfeeds.bounded
  rw [ThreadHost.ahead, filterMap_append, eq_comm,
    List.range'_eq_append_iff] at hahead
  obtain ⟨skipped, hle, hpending, hunsent⟩ := hahead
  refine ⟨skipped, hpending, Nat.le_refl _, by omega, ?_⟩
  rw [ThreadHost.ahead, Broadcast.pending_subscribe, nil_append, hunsent]
  congr 1 <;> omega

/-- The next message of a receiver: an event is the one after those seen. -/
theorem Feeds.receive {event : ActorEvent} {rest : List ActorEvent}
    (hpending : host.channel.pending receiver = event :: rest)
    (hrest : host.channel.pending ⟨receiver.next + 1⟩ = rest) :
    event.eventSeq = some (seen + 1) ∧
        host.Feeds store ⟨receiver.next + 1⟩ (seen + 1) ∨
      event.eventSeq = none ∧ host.Feeds store ⟨receiver.next + 1⟩ seen := by
  have hwithin : receiver.next + 1 ≤ host.channel.sent.length := by
    by_contra hbeyond
    rw [Broadcast.pending, drop_eq_nil_of_le (by omega)] at hpending
    cases hpending
  have hahead := hfeeds.ahead
  rw [ThreadHost.ahead, hpending, cons_append] at hahead
  cases hseq : event.eventSeq with
  | some seq =>
    rw [filterMap_cons_some hseq, eq_comm,
      List.range'_eq_cons_iff] at hahead
    obtain ⟨rfl, hmore, htail⟩ := hahead
    refine Or.inl ⟨rfl, hwithin, Nat.lt_of_sub_pos hmore, ?_⟩
    rw [ThreadHost.ahead, hrest, htail]
    congr 1
  | none =>
    rw [filterMap_cons_none hseq] at hahead
    refine Or.inr ⟨rfl, hwithin, hfeeds.bounded, ?_⟩
    rw [ThreadHost.ahead, hrest]
    exact hahead

end

end ThreadHost

end Vellum.Broker
