/-
The stream of a subscribed connection: a snapshot, a replay read by the actor,
and a live receiver, stitched together by one cursor.  What breaks the stream
is replacing the receiver while it still holds events, and a replay that stops
short of the log.
-/
import Vellum.Broker.ThreadHost
import Vellum.Broker.Gateway

namespace Vellum.Broker

open List Option

/-- The number of a thread event sent to the client. -/
def Outbound.eventSeq : Outbound → Option Nat
  | .threadEvent event => some event.seq
  | .welcome | .snapshot _ | .commandResult _ | .approvalPending _ => none

/-- What the connection is waiting for.  The reply to a command comes when its
result has been broadcast, `due` messages in all. -/
inductive StreamPhase where
  | unsubscribed
  | attaching
  | attached (result : ThreadActor.AttachResult)
  | streaming
  | commanding (request : ThreadCommandRequest)
  | answered (result : ThreadCommandResult) (due : Nat)

/-- The host of a thread, the store, and one connection. -/
structure ThreadStream where
  host : ThreadHost
  store : EventStore
  connection : Connection
  phase : StreamPhase

namespace ThreadStream

/-- A freshly spawned actor over any store, and any connection. -/
def start (threadId : String) (store : EventStore) (before : Connection) :
    ThreadStream where
  host := .spawn threadId
  store := store.ensureThread threadId none .idle
  connection := before
  phase := .unsubscribed

/-- The actor handles a message of someone else (an acknowledgement of this
client is one too) or broadcasts; other threads write to the store; the
connection subscribes, once, receives, and sends commands. -/
inductive Action where
  | actor (message : ThreadActorMessage)
  | broadcast
  | elsewhere (store : EventStore)
  | subscribe
  | attach (reads : ThreadActor.AttachReads)
  | finishSubscribe
  | receive
  | command (request : ThreadCommandRequest)
  | handleCommand (lookup : CommandLookup) (outside : CommandOutside)
  | finishCommand

/-- `rx.recv().await.ok()` in the connection's loop: after a lag nothing is
forwarded and the receiver goes on from what is left. -/
def receiveStep (stream : ThreadStream) (receiver : Receiver) :
    Option ThreadStream :=
  match stream.host.channel.recv channelCapacity receiver with
  | (.empty, _) => none
  | (.lagged _, next) =>
    some { stream with
      connection := { stream.connection with actorEvents := some next } }
  | (.message event, next) =>
    some { stream with
      connection :=
        { stream.connection.receive event with actorEvents := some next } }

section Run

variable (digest : Json → String) (deviceId : String)
  (subscribe : ThreadSubscribe)

def step (stream : ThreadStream) : Action → Option ThreadStream
  | .actor message =>
    (stream.host.act digest stream.store message).map fun acted =>
      { stream with host := acted.1, store := acted.2.1 }
  | .broadcast =>
    stream.host.broadcast.map fun host => { stream with host := host }
  | .elsewhere store =>
    if store.threadEvents stream.host.actor.threadId =
        stream.store.threadEvents stream.host.actor.threadId then
      some { stream with store := store }
    else none
  | .subscribe =>
    match stream.phase with
    | .unsubscribed =>
      some { stream with
        connection := stream.connection.beginSubscribe subscribe
          stream.host.channel.subscribe
        phase := .attaching }
    | _ => none
  | .attach reads =>
    match stream.phase, stream.host.act digest stream.store (.attachClient
        deviceId subscribe.mode subscribe.lastAckSeq reads) with
    | .attaching, some (host, store, .attached result) =>
      some { stream with
        host := host, store := store, phase := .attached result }
    | _, _ => none
  | .finishSubscribe =>
    match stream.phase with
    | .attached result =>
      some { stream with
        connection := stream.connection.finishSubscribe result
        phase := .streaming }
    | _ => none
  | .receive =>
    match stream.phase, stream.connection.actorEvents with
    | .streaming, some receiver => stream.receiveStep receiver
    | _, _ => none
  | .command request =>
    match stream.phase with
    | .streaming =>
      if stream.connection.commandThread request =
          some stream.host.actor.threadId then
        some { stream with
          connection := stream.connection.beginCommand
            stream.host.actor.threadId stream.host.channel.subscribe
          phase := .commanding request }
      else none
    | _ => none
  | .handleCommand lookup outside =>
    match stream.phase with
    | .commanding request =>
      match stream.host.act digest stream.store
          (.clientCommand deviceId request lookup outside) with
      | some (host, store, .answered result) =>
        some { stream with
          host := host, store := store, phase := .answered result host.due }
      | _ => none
    | _ => none
  | .finishCommand =>
    match stream.phase with
    | .answered result due =>
      if due ≤ stream.host.channel.sent.length then
        some { stream with
          connection := stream.connection.finishCommand result
          phase := .streaming }
      else none
    | _ => none

/-- The steps that keep the stream whole: the replay reaches the end of the
log, the receiver does not lag, and a command does not replace a receiver that
holds an event beyond the cursor. -/
def Whole (stream : ThreadStream) : Action → Prop
  | .attach reads =>
    let actor := stream.host.actor
    let count := actor.logLength stream.store.toEventTables
    let base := max subscribe.lastAckSeq (ThreadActor.servedSeq
      stream.store.toEventTables actor.threadId reads)
    count ≤ base ∨
      reads.eventsFail = false ∧ count ≤ base + ThreadActor.replayLimit
  | .receive =>
    ∀ receiver ∈ stream.connection.actorEvents,
      stream.host.channel.sent.length ≤ receiver.next + channelCapacity
  | .command _ =>
    ∀ receiver ∈ stream.connection.actorEvents,
      ∀ seq ∈ (stream.host.channel.pending receiver).filterMap
          ActorEvent.eventSeq,
        seq ≤ stream.connection.lastForwardedSeq
  | _ => True

instance (stream : ThreadStream) :
    (action : Action) → Decidable (stream.Whole subscribe action)
  | .attach _ => inferInstanceAs (Decidable (_ ∨ _ ∧ _))
  | .receive =>
    inferInstanceAs (Decidable (∀ receiver ∈ stream.connection.actorEvents,
      stream.host.channel.sent.length ≤ receiver.next + channelCapacity))
  | .command _ =>
    inferInstanceAs (Decidable (∀ receiver ∈ stream.connection.actorEvents,
      ∀ seq ∈ (stream.host.channel.pending receiver).filterMap
          ActorEvent.eventSeq,
        seq ≤ stream.connection.lastForwardedSeq))
  | .actor _ | .broadcast | .elsewhere _ | .subscribe | .finishSubscribe
  | .handleCommand _ _ | .finishCommand => inferInstanceAs (Decidable True)

end Run

/-- The receiver has all events ahead of it but the first `seen`. -/
def Feeds (stream : ThreadStream) (receiver : Receiver) (seen : Nat) : Prop :=
  stream.host.Feeds stream.store.toEventTables receiver seen

/-- What the client has been told: a snapshot, and after it the events that
follow snapshot and acknowledgement, up to the cursor, one after the other. -/
def Told (before : Connection) (lastAckSeq : Nat) (connection : Connection) :
    Prop :=
  ∃ snapshot sent,
    connection.outbox = before.outbox ++ .snapshot snapshot :: sent ∧
    max lastAckSeq snapshot.snapshotSeq ≤ connection.lastForwardedSeq ∧
    sent.filterMap Outbound.eventSeq =
      List.range' (max lastAckSeq snapshot.snapshotSeq + 1)
        (connection.lastForwardedSeq - max lastAckSeq snapshot.snapshotSeq)

section

variable {before : Connection} {subscribe : ThreadSubscribe}
  {stream : ThreadStream} {receiver : Receiver} {seen : Nat}

/-- Other messages do not count. -/
theorem Told.push {connection : Connection} {lastAckSeq : Nat}
    (htold : Told before lastAckSeq connection) {message : Outbound}
    (hother : message.eventSeq = none) (receiver : Option Receiver) :
    Told before lastAckSeq { connection with
      actorEvents := receiver, outbox := connection.outbox ++ [message] } := by
  obtain ⟨snapshot, sent, houtbox, hbase, hsent⟩ := htold
  refine ⟨snapshot, sent ++ [message], ?_, hbase, ?_⟩
  · simp [houtbox]
  · simpa [hother] using hsent

theorem Told.next {connection : Connection} {lastAckSeq : Nat}
    (htold : Told before lastAckSeq connection) {message : Outbound}
    (hnext : message.eventSeq = some (connection.lastForwardedSeq + 1))
    (receiver : Option Receiver) :
    Told before lastAckSeq { connection with
      actorEvents := receiver
      lastForwardedSeq := connection.lastForwardedSeq + 1
      outbox := connection.outbox ++ [message] } := by
  obtain ⟨snapshot, sent, houtbox, hbase, hsent⟩ := htold
  refine ⟨snapshot, sent ++ [message], ?_, Nat.le_succ_of_le hbase, ?_⟩
  · simp [houtbox]
  · have hcount : connection.lastForwardedSeq + 1 -
        max lastAckSeq snapshot.snapshotSeq =
          connection.lastForwardedSeq - max lastAckSeq snapshot.snapshotSeq +
            1 := by omega
    have hlast : max lastAckSeq snapshot.snapshotSeq + 1 +
        (connection.lastForwardedSeq - max lastAckSeq snapshot.snapshotSeq) =
          connection.lastForwardedSeq + 1 := by omega
    rw [hcount, List.range'_1_concat, hlast, filterMap_append, hsent,
      filterMap_cons_some hnext, filterMap_nil]

/-- The replay continues snapshot and acknowledgement and reaches the events
the receiver has skipped. -/
def Reaches (lastAckSeq : Nat) (result : ThreadActor.AttachResult)
    (seen : Nat) : Prop :=
  let base := max lastAckSeq result.snapshot.snapshotSeq
  ∃ count, (result.replay.filter fun event =>
      decide (base < event.seq)).map ThreadEvent.seq =
        List.range' (base + 1) count ∧ seen ≤ base + count

theorem told_finishSubscribe (before : Connection) (subscribe : ThreadSubscribe)
    (receiver : Receiver) {result : ThreadActor.AttachResult}
    (hreaches : Reaches subscribe.lastAckSeq result seen) : let connection :=
      (before.beginSubscribe subscribe receiver).finishSubscribe result
    connection.actorEvents = some receiver ∧
      seen ≤ connection.lastForwardedSeq ∧
      Told before subscribe.lastAckSeq connection := by
  obtain ⟨count, hseqs, hseen⟩ := hreaches
  intro connection
  have hlength := congrArg List.length hseqs
  rw [length_map, length_range'] at hlength
  have hconnection : connection =
      { before.beginSubscribe subscribe receiver with
        lastForwardedSeq :=
          max subscribe.lastAckSeq result.snapshot.snapshotSeq + count
        outbox := before.outbox ++ .snapshot result.snapshot ::
          (result.replay.filter fun event => decide
            (max subscribe.lastAckSeq result.snapshot.snapshotSeq <
              event.seq)).map .threadEvent } := by
    simp only [connection, Connection.finishSubscribe,
      Connection.beginSubscribe]
    rw [Connection.forwardReplay_filter _ _
      (max subscribe.lastAckSeq result.snapshot.snapshotSeq) (Nat.le_refl _),
      Connection.forwardReplay_consecutive _ _ (by rw [hseqs, hlength]),
      hlength, append_assoc]
    rfl
  rw [hconnection]
  refine ⟨rfl, hseen, result.snapshot, _, rfl, Nat.le_add_right _ _, ?_⟩
  simp only [Nat.add_sub_cancel_left]
  rw [← hseqs, filterMap_map]
  exact congrFun filterMap_eq_map' _

/-- The invariant of the stream, phase by phase.  From the subscription on the
receiver has everything ahead of it that it has not skipped, and from the
snapshot on what it skipped is within the cursor. -/
def InStep (before : Connection) (subscribe : ThreadSubscribe)
    (stream : ThreadStream) : Prop :=
  match stream.phase with
  | .unsubscribed =>
    stream.connection = before ∧
      ∃ seen, stream.Feeds stream.host.channel.subscribe seen
  | .attaching =>
    ∃ receiver seen,
      stream.connection = before.beginSubscribe subscribe receiver ∧
      stream.Feeds receiver seen
  | .attached result =>
    ∃ receiver seen,
      stream.connection = before.beginSubscribe subscribe receiver ∧
      stream.Feeds receiver seen ∧
      Reaches subscribe.lastAckSeq result seen
  | .streaming | .commanding _ | .answered _ _ =>
    ∃ receiver seen, stream.connection.actorEvents = some receiver ∧
      stream.Feeds receiver seen ∧
      seen ≤ stream.connection.lastForwardedSeq ∧
      Told before subscribe.lastAckSeq stream.connection

/-- The actor's side moves on while the connection waits. -/
theorem InStep.of_feeds (hin : stream.InStep before subscribe)
    {host : ThreadHost} {store : EventStore}
    (hfeeds : ∀ receiver seen, stream.Feeds receiver seen →
      host.Feeds store.toEventTables receiver seen) :
    ({ stream with host := host, store := store } : ThreadStream).InStep before
      subscribe := by
  unfold InStep at hin ⊢
  simp only
  split at hin
  · obtain ⟨hbefore, seen, hseen⟩ := hin
    obtain ⟨skipped, -, hfresh⟩ := (hfeeds _ _ hseen).resubscribe
    exact ⟨hbefore, seen + skipped, hfresh⟩
  · obtain ⟨receiver, seen, hbegun, hseen⟩ := hin
    exact ⟨receiver, seen, hbegun, hfeeds _ _ hseen⟩
  · obtain ⟨receiver, seen, hbegun, hseen, hreaches⟩ := hin
    exact ⟨receiver, seen, hbegun, hfeeds _ _ hseen, hreaches⟩
  all_goals
    obtain ⟨receiver, seen, hreceiver, hseen, hcursor, htold⟩ := hin
    exact ⟨receiver, seen, hreceiver, hfeeds _ _ hseen, hcursor, htold⟩

theorem reaches_attach {digest : Json → String} {deviceId : String}
    {host : ThreadHost} {store : EventStore} {reads : ThreadActor.AttachReads}
    {result : ThreadActor.AttachResult}
    (hact : stream.host.act digest stream.store (.attachClient deviceId
      subscribe.mode subscribe.lastAckSeq reads) =
        some (host, store, .attached result))
    (hwhole : stream.Whole subscribe (.attach reads))
    (hseen : seen ≤
      stream.host.actor.logLength stream.store.toEventTables) :
    Reaches subscribe.lastAckSeq result seen := by
  obtain ⟨-, -, -, hreply⟩ := ThreadHost.act_eq_some hact
  obtain ⟨hserved, hreplay⟩ := stream.host.actor.attachClient_result
    stream.store.toEventTables deviceId subscribe.mode subscribe.lastAckSeq
    reads
  have hresult : (stream.host.actor.attachClient stream.store.toEventTables
      deviceId subscribe.mode subscribe.lastAckSeq reads).2 = result :=
    (ActorReply.attached.inj hreply).symm
  rw [hresult] at hserved hreplay
  simp only [Whole, ThreadActor.logLength] at hwhole hseen
  by_cases hfails : reads.eventsFail
  · refine ⟨0, ?_, ?_⟩
    · rw [hreplay, if_pos hfails]
      rfl
    · rcases hwhole with hwithin | ⟨hreads, -⟩
      · rw [hserved]
        omega
      · rw [hreads] at hfails
        cases hfails
  · rw [if_neg hfails] at hreplay
    have hseqs := Connection.seqs_replay stream.store
      stream.host.actor.threadId
      (max subscribe.lastAckSeq result.snapshot.snapshotSeq)
    rw [← Connection.replay_filter, hserved, ← hreplay, ← hserved] at hseqs
    refine ⟨_, hseqs, ?_⟩
    rw [hserved, hreplay, Connection.replay_filter, length_map,
      length_take, length_drop]
    omega

theorem inStep_of_streaming (hphase : stream.phase = .streaming)
    (hreceiver : stream.connection.actorEvents = some receiver)
    (hfeeds : stream.Feeds receiver seen)
    (hcursor : seen ≤ stream.connection.lastForwardedSeq)
    (htold : Told before subscribe.lastAckSeq stream.connection) :
    stream.InStep before subscribe := by
  unfold InStep
  rw [hphase]
  exact ⟨receiver, seen, hreceiver, hfeeds, hcursor, htold⟩

/-- A received message: the cursor takes the next event, and suppresses what
the replay has sent already. -/
theorem inStep_receive {next : ThreadStream}
    (hphase : stream.phase = .streaming) (hfeeds : stream.Feeds receiver seen)
    (hcursor : seen ≤ stream.connection.lastForwardedSeq)
    (htold : Told before subscribe.lastAckSeq stream.connection)
    (hlag : stream.host.channel.sent.length ≤
      receiver.next + channelCapacity)
    (hstep : stream.receiveStep receiver = some next) :
    next.InStep before subscribe := by
  unfold receiveStep at hstep
  cases hpending : stream.host.channel.pending receiver with
  | nil =>
    rw [Broadcast.recv_of_pending_nil _ _ _ hlag hpending] at hstep
    cases hstep
  | cons event rest =>
    obtain ⟨hrecv, hrest⟩ :=
      Broadcast.recv_of_pending_cons channelCapacity _ _ hlag hpending
    rw [hrecv, some.injEq] at hstep
    rw [← hstep]
    rcases ThreadHost.Feeds.receive hfeeds hpending hrest with
      ⟨hseq, hnext⟩ | ⟨hother, hnext⟩
    · cases event with
      | threadEvent event =>
        rw [ActorEvent.eventSeq, some.injEq] at hseq
        by_cases hbeyond : stream.connection.lastForwardedSeq < event.seq
        · -- what was seen reached the cursor, so this event is the next
          have hsame : stream.connection.lastForwardedSeq = seen := by omega
          have hmessage : (Outbound.threadEvent event).eventSeq =
              some (stream.connection.lastForwardedSeq + 1) := by
            rw [Outbound.eventSeq, hseq, hsame]
          have hsent := htold.next hmessage (some ⟨receiver.next + 1⟩)
          rw [hsame] at hsent
          have hforward : stream.connection.receive (.threadEvent event) =
              { stream.connection with
                lastForwardedSeq := seen + 1
                outbox := stream.connection.outbox ++
                  [.threadEvent event] } := by
            rw [Connection.receive, Connection.forward, if_pos hbeyond,
              hseq]
          rw [hforward]
          exact inStep_of_streaming hphase rfl hnext (Nat.le_refl _) hsent
        · have hkept : stream.connection.receive (.threadEvent event) =
              stream.connection := by
            rw [Connection.receive, Connection.forward, if_neg hbeyond]
          rw [hkept]
          refine inStep_of_streaming hphase rfl hnext ?_ htold
          simp only
          omega
      | commandResult | approvalPending => cases hseq
    · cases event with
      | threadEvent event => cases hother
      | commandResult result =>
        exact inStep_of_streaming hphase rfl hnext hcursor
          (htold.push rfl _)
      | approvalPending approval =>
        exact inStep_of_streaming hphase rfl hnext hcursor
          (htold.push rfl _)

/-- A command replaces the receiver, which is harmless when nothing beyond the
cursor was pending. -/
theorem inStep_command (hfeeds : stream.Feeds receiver seen)
    (hcursor : seen ≤ stream.connection.lastForwardedSeq)
    (htold : Told before subscribe.lastAckSeq stream.connection)
    (hpending : ∀ seq ∈ (stream.host.channel.pending receiver).filterMap
        ActorEvent.eventSeq, seq ≤ stream.connection.lastForwardedSeq)
    (request : ThreadCommandRequest) :
    ({ stream with
        connection := stream.connection.beginCommand stream.host.actor.threadId
          stream.host.channel.subscribe
        phase := .commanding request } : ThreadStream).InStep before
      subscribe := by
  obtain ⟨skipped, hskipped, hfresh⟩ := hfeeds.resubscribe
  have hwithin : seen + skipped ≤ stream.connection.lastForwardedSeq := by
    cases skipped with
    | zero => exact hcursor
    | succ n =>
      apply hpending
      rw [hskipped, mem_range'_1]
      omega
  exact ⟨_, _, rfl, hfresh, hwithin, htold⟩

theorem inStep_step {digest : Json → String} {deviceId : String}
    {next : ThreadStream} {action : Action}
    (hin : stream.InStep before subscribe)
    (hwhole : stream.Whole subscribe action)
    (hstep : stream.step digest deviceId subscribe action = some next) :
    next.InStep before subscribe := by
  cases action with
  | actor message =>
    obtain ⟨⟨host, store, reply⟩, hact, rfl⟩ :=
      map_eq_some_iff.mp hstep
    exact hin.of_feeds fun _ _ hfeeds => hfeeds.act hact
  | broadcast =>
    obtain ⟨host, hbroadcast, rfl⟩ := map_eq_some_iff.mp hstep
    exact hin.of_feeds fun _ _ hfeeds => hfeeds.broadcast hbroadcast
  | elsewhere store =>
    rw [step] at hstep
    split at hstep
    · rename_i hsame
      rw [← some.inj hstep]
      exact hin.of_feeds fun _ _ hfeeds => hfeeds.of_threadEvents hsame
    · cases hstep
  | subscribe =>
    rw [step] at hstep
    split at hstep
    · rename_i hphase
      rw [← some.inj hstep]
      unfold InStep at hin
      rw [hphase] at hin
      obtain ⟨rfl, seen, hfeeds⟩ := hin
      exact ⟨_, seen, rfl, hfeeds⟩
    · cases hstep
  | attach reads =>
    rw [step] at hstep
    split at hstep
    · rename_i host store result hphase hact
      rw [← some.inj hstep]
      unfold InStep at hin
      rw [hphase] at hin
      obtain ⟨receiver, seen, hbegun, hfeeds⟩ := hin
      exact ⟨receiver, seen, hbegun, hfeeds.act hact,
        reaches_attach hact hwhole hfeeds.bounded⟩
    · cases hstep
  | finishSubscribe =>
    rw [step] at hstep
    split at hstep
    · rename_i result hphase
      rw [← some.inj hstep]
      unfold InStep at hin
      rw [hphase] at hin
      obtain ⟨receiver, seen, hbegun, hfeeds, hreaches⟩ := hin
      obtain ⟨hreceiver, hcursor, htold⟩ :=
        told_finishSubscribe before subscribe receiver hreaches
      rw [← hbegun] at hreceiver hcursor htold
      exact inStep_of_streaming rfl hreceiver hfeeds hcursor htold
    · cases hstep
  | receive =>
    rw [step] at hstep
    split at hstep
    · rename_i receiver hphase hreceiver
      unfold InStep at hin
      rw [hphase] at hin
      obtain ⟨held, seen, hheld, hfeeds, hcursor, htold⟩ := hin
      rw [hreceiver, some.injEq] at hheld
      subst hheld
      exact inStep_receive hphase hfeeds hcursor htold
        (hwhole receiver hreceiver) hstep
    · cases hstep
  | command request =>
    rw [step] at hstep
    split at hstep
    · rename_i hphase
      split at hstep
      · rw [← some.inj hstep]
        unfold InStep at hin
        rw [hphase] at hin
        obtain ⟨receiver, seen, hreceiver, hfeeds, hcursor, htold⟩ := hin
        exact inStep_command hfeeds hcursor htold
          (hwhole receiver hreceiver) request
      · cases hstep
    · cases hstep
  | handleCommand lookup outside =>
    rw [step] at hstep
    split at hstep
    · rename_i request hphase
      split at hstep
      · rename_i host store result hact
        rw [← some.inj hstep]
        unfold InStep at hin
        rw [hphase] at hin
        obtain ⟨receiver, seen, hreceiver, hfeeds, hcursor, htold⟩ := hin
        exact ⟨receiver, seen, hreceiver, hfeeds.act hact, hcursor, htold⟩
      · cases hstep
    · cases hstep
  | finishCommand =>
    rw [step] at hstep
    split at hstep
    · rename_i result due hphase
      split at hstep
      · rw [← some.inj hstep]
        unfold InStep at hin
        rw [hphase] at hin
        obtain ⟨receiver, seen, hreceiver, hfeeds, hcursor, htold⟩ := hin
        exact inStep_of_streaming rfl hreceiver hfeeds hcursor
          (htold.push rfl _)
      · cases hstep
    · cases hstep

end

/-- In every run whose steps keep the stream whole, whatever the actor, the
other clients and this client's commands do in between, the events sent after
the snapshot are those that follow snapshot and acknowledgement, without a gap
and without a repeat. -/
theorem stream_unbroken {digest : Json → String} {deviceId : String}
    {subscribe : ThreadSubscribe} {store : EventStore} {before : Connection}
    {actions : List Action} {finish : ThreadStream}
    (run : GuardedRun (step digest deviceId subscribe) (Whole subscribe)
      (start subscribe.threadId store before) actions finish) :
    finish.connection.outbox = before.outbox ∨
      ∃ snapshot sent,
        finish.connection.outbox =
          before.outbox ++ .snapshot snapshot :: sent ∧
        sent.filterMap Outbound.eventSeq =
          List.range' (max subscribe.lastAckSeq snapshot.snapshotSeq + 1)
            (sent.filterMap Outbound.eventSeq).length := by
  have hin : finish.InStep before subscribe := by
    induction run with
    | nil => exact ⟨rfl, ThreadHost.feeds_spawn _ _⟩
    | snoc run hok hstep ih => exact inStep_step ih hok hstep
  unfold InStep at hin
  split at hin
  · exact Or.inl (congrArg Connection.outbox hin.1)
  · obtain ⟨receiver, -, hbegun, -⟩ := hin
    refine Or.inl ?_
    rw [hbegun]
    rfl
  · obtain ⟨receiver, -, hbegun, -⟩ := hin
    refine Or.inl ?_
    rw [hbegun]
    rfl
  all_goals
    obtain ⟨-, -, -, -, -, snapshot, sent, houtbox, -, hsent⟩ := hin
    refine Or.inr ⟨snapshot, sent, houtbox, ?_⟩
    rw [hsent, length_range']

namespace CommandDuringEvents

/-- The digest of `writer.acquire`. -/
def digest : Json → String := fun _ =>
  "b2ddc83482bfb22a841e60a9430eb2ac" ++
  "f6c05d01162a0f68e14543d115e6f878"

def subscribe : ThreadSubscribe := ⟨"thread-1", 0, .observer⟩

def reads : ThreadActor.AttachReads := ⟨[], none, false, false, false⟩

def ingest : Action :=
  .actor (.upstreamEvent 1 "item/started" .null 0 none)

def request : ThreadCommandRequest :=
  ⟨"key-1", some "thread-1", none, .writerAcquire⟩

def outside : CommandOutside :=
  ⟨none, .ok .null, .ok none, 1, .ok (.ok (.str "lease-1")), false⟩

def subscribed : List Action := [.subscribe, .attach reads, .finishSubscribe]

def commanded : List Action :=
  [.command request, .handleCommand ⟨none, none⟩ outside, .broadcast,
    .finishCommand]

def event (seq : Nat) : ThreadEvent :=
  ⟨seq, "thread-1", 1, "item/started", 0, none, none, .null⟩

def emptySnapshot : ThreadSnapshot :=
  (ThreadActor.spawn "thread-1").currentSnapshot 0 [] none

def acquired : ThreadCommandResult := accepted "key-1" (.str "lease-1")

/-- An event is broadcast, and before the connection has read it the client
asks for the writer lease.  The new receiver starts after that event: it is
never sent, and the next one is. -/
theorem command_drops_event :
    (runActions (step digest "phone" subscribe)
        (start "thread-1" .empty .new)
        (subscribed ++ [ingest, .broadcast] ++ commanded ++
          [ingest, .broadcast, .receive, .receive])).map
      (fun stream => stream.connection.outbox) =
        some [.snapshot emptySnapshot, .commandResult acquired,
          .commandResult acquired, .threadEvent (event 2)] ∧
    List.filterMap Outbound.eventSeq [.commandResult acquired,
        .commandResult acquired, .threadEvent (event 2)] ≠
      List.range' (max subscribe.lastAckSeq emptySnapshot.snapshotSeq + 1)
        1 := by
  decide +kernel

/-- The same with the event read before the command: both events arrive. -/
theorem event_read_before_command :
    ∃ finish, GuardedRun (step digest "phone" subscribe) (Whole subscribe)
        (start subscribe.threadId .empty .new)
        (subscribed ++ [ingest, .broadcast, .receive] ++ commanded ++
          [ingest, .broadcast, .receive, .receive]) finish ∧
      finish.connection.outbox.filterMap Outbound.eventSeq = [1, 2] ∧
      (finish.connection.outbox = Connection.new.outbox ∨
        ∃ snapshot sent,
          finish.connection.outbox =
            Connection.new.outbox ++ .snapshot snapshot :: sent ∧
          sent.filterMap Outbound.eventSeq =
            List.range' (max subscribe.lastAckSeq snapshot.snapshotSeq + 1)
              (sent.filterMap Outbound.eventSeq).length) := by
  have hseqs : (runGuarded (step digest "phone" subscribe)
      (fun stream action => decide (stream.Whole subscribe action))
      (start subscribe.threadId .empty .new)
      (subscribed ++ [ingest, .broadcast, .receive] ++ commanded ++
        [ingest, .broadcast, .receive, .receive])).map (fun stream =>
          stream.connection.outbox.filterMap Outbound.eventSeq) =
        some [1, 2] := by
    decide +kernel
  obtain ⟨finish, hrun, htwo⟩ := map_eq_some_iff.mp hseqs
  have run := guardedRun_of_runGuarded
    (fun _ _ hcheck => of_decide_eq_true hcheck) hrun
  exact ⟨finish, run, htwo, stream_unbroken run⟩

end CommandDuringEvents

end ThreadStream

end Vellum.Broker
