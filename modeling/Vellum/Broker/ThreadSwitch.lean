/-
A connection that moves between threads.  Numbers are per thread, the cursor is
one number per connection: a `client.hello` or a `thread.subscribe` sets it for
the thread it names, a command moves the connection and leaves it.  The
connection is followed together with the thread its cursor is about and every
comparison it makes.
-/
import Vellum.Broker.ThreadHost
import Vellum.Broker.Gateway

namespace Vellum.Broker

open List Option

/-- An event held against the cursor, and the thread the cursor is about. -/
structure Comparison where
  event : ThreadEvent
  cursor : Nat
  cursorThread : Option String
deriving DecidableEq

structure TrackedConnection where
  connection : Connection
  cursorThread : Option String
  compared : List Comparison

namespace TrackedConnection

def new : TrackedConnection := ⟨.new, none, []⟩

def forward (tracked : TrackedConnection) (event : ThreadEvent) :
    TrackedConnection where
  connection := tracked.connection.forward event
  cursorThread :=
    if tracked.connection.lastForwardedSeq < event.seq then some event.threadId
    else tracked.cursorThread
  compared := tracked.compared ++
    [⟨event, tracked.connection.lastForwardedSeq, tracked.cursorThread⟩]

def forwardReplay (tracked : TrackedConnection) (replay : List ThreadEvent) :
    TrackedConnection :=
  replay.foldl forward tracked

def beginHello (tracked : TrackedConnection) (resume : ResumeHint)
    (receiver : Receiver) : TrackedConnection :=
  { tracked with
    connection := tracked.connection.beginHello resume receiver
    cursorThread := some resume.threadId }

def finishHello (tracked : TrackedConnection)
    (attach : ThreadActor.AttachResult) : TrackedConnection :=
  tracked.forwardReplay attach.replay

def beginSubscribe (tracked : TrackedConnection) (subscribe : ThreadSubscribe)
    (receiver : Receiver) : TrackedConnection :=
  { tracked with
    connection := tracked.connection.beginSubscribe subscribe receiver
    cursorThread := some subscribe.threadId }

/-- The snapshot's number may take over the cursor before the replay. -/
def finishSubscribe (tracked : TrackedConnection)
    (attach : ThreadActor.AttachResult) : TrackedConnection :=
  let tracked : TrackedConnection :=
    { tracked with
      connection := tracked.connection.finishSubscribe ⟨attach.snapshot, []⟩
      cursorThread :=
        if tracked.connection.lastForwardedSeq <
            attach.snapshot.snapshotSeq then
          some attach.snapshot.threadId
        else tracked.cursorThread }
  tracked.forwardReplay attach.replay

def beginCommand (tracked : TrackedConnection) (threadId : String)
    (receiver : Receiver) : TrackedConnection :=
  { tracked with
    connection := tracked.connection.beginCommand threadId receiver }

def finishCommand (tracked : TrackedConnection)
    (result : ThreadCommandResult) : TrackedConnection :=
  { tracked with connection := tracked.connection.finishCommand result }

def receive (tracked : TrackedConnection) : ActorEvent → TrackedConnection
  | .threadEvent event => tracked.forward event
  | event => { tracked with connection := tracked.connection.receive event }

def advanceReceiver (tracked : TrackedConnection) (receiver : Receiver) :
    TrackedConnection :=
  { tracked with
    connection := { tracked.connection with actorEvents := some receiver } }

@[simp]
theorem forwardReplay_connection (tracked : TrackedConnection)
    (replay : List ThreadEvent) :
    (tracked.forwardReplay replay).connection =
      tracked.connection.forwardReplay replay := by
  induction replay generalizing tracked with
  | nil => rfl
  | cons event rest ih => exact ih (tracked.forward event)

end TrackedConnection

/-- An event of a thread.  Numbers start at one. -/
def ThreadEvent.Of (threadId : String) (event : ThreadEvent) : Prop :=
  event.threadId = threadId ∧ 0 < event.seq

/-- The event was held against its own thread's cursor, or against none. -/
def Comparison.Fair (comparison : Comparison) : Prop :=
  0 < comparison.event.seq ∧
    (comparison.cursor = 0 ∨
      comparison.cursorThread = some comparison.event.threadId)

namespace TrackedConnection

/-- The connection is on a thread, its cursor is about that thread or unset,
and all comparisons were fair. -/
structure Follows (threadId : String) (tracked : TrackedConnection) :
    Prop where
  subscribed : tracked.connection.subscribedThread = some threadId
  own : tracked.connection.lastForwardedSeq = 0 ∨
    tracked.cursorThread = some threadId
  fair : ∀ comparison ∈ tracked.compared, comparison.Fair

variable {threadId : String} {tracked : TrackedConnection}

section

variable (hfollows : tracked.Follows threadId)
include hfollows

theorem Follows.forward {event : ThreadEvent} (hevent : event.Of threadId) :
    (tracked.forward event).Follows threadId := by
  obtain ⟨hthread, hpositive⟩ := hevent
  refine ⟨?_, ?_, ?_⟩
  · simp only [TrackedConnection.forward, Connection.forward]
    split <;> exact hfollows.subscribed
  · simp only [TrackedConnection.forward, Connection.forward]
    split
    · exact Or.inr (by rw [hthread])
    · exact hfollows.own
  · intro comparison hcomparison
    rcases mem_append.mp hcomparison with hold | hnew
    · exact hfollows.fair comparison hold
    · rw [mem_singleton.mp hnew]
      refine ⟨hpositive, ?_⟩
      rw [hthread]
      exact hfollows.own

theorem Follows.forwardReplay {replay : List ThreadEvent}
    (hreplay : ∀ event ∈ replay, event.Of threadId) :
    (tracked.forwardReplay replay).Follows threadId := by
  induction replay generalizing tracked with
  | nil => exact hfollows
  | cons event rest ih =>
    apply ih
    · exact hfollows.forward (hreplay event mem_cons_self)
    · intro other hother
      exact hreplay other (mem_cons_of_mem event hother)

theorem Follows.finishSubscribe {attach : ThreadActor.AttachResult}
    (hsnapshot : attach.snapshot.threadId = threadId)
    (hreplay : ∀ event ∈ attach.replay, event.Of threadId) :
    (tracked.finishSubscribe attach).Follows threadId := by
  apply Follows.forwardReplay
  · refine ⟨hfollows.subscribed, ?_, hfollows.fair⟩
    simp only [Connection.finishSubscribe, Connection.forwardReplay_nil]
    split
    · exact Or.inr (by rw [hsnapshot])
    · rcases hfollows.own with hzero | hthread
      · exact Or.inl (by omega)
      · exact Or.inr hthread
  · exact hreplay

theorem Follows.advanceReceiver (receiver : Receiver) :
    (tracked.advanceReceiver receiver).Follows threadId :=
  ⟨hfollows.subscribed, hfollows.own, hfollows.fair⟩

/-- Any message of the thread's channel. -/
theorem Follows.receive {event : ActorEvent}
    (hevent : ∀ threadEvent, event = .threadEvent threadEvent →
      threadEvent.Of threadId) : (tracked.receive event).Follows threadId := by
  cases event with
  | threadEvent threadEvent => exact hfollows.forward (hevent _ rfl)
  | commandResult result =>
    exact ⟨hfollows.subscribed, hfollows.own, hfollows.fair⟩
  | approvalPending approval =>
    exact ⟨hfollows.subscribed, hfollows.own, hfollows.fair⟩

end

end TrackedConnection

namespace ThreadActor

theorem handle_event_of (digest : Json → String) (actor : ThreadActor)
    (store : EventStore) (message : ThreadActorMessage) {event : ThreadEvent}
    (hevent : (actor.handle digest store message).broadcast =
      some (.threadEvent event)) : event.Of actor.threadId := by
  have hpositive : 0 < event.seq := by
    have hseqs := (actor.handle_broadcast digest store message).2
    rw [hevent] at hseqs
    have hmem : event.seq ∈ List.range'
        (actor.logLength store.toEventTables + 1)
        (actor.logLength
          (actor.handle digest store message).store.toEventTables -
            actor.logLength store.toEventTables) := by
      rw [← hseqs]
      exact mem_singleton_self _
    rw [mem_range'_1] at hmem
    omega
  refine ⟨?_, hpositive⟩
  cases message with
  | upstreamEvent epoch method payload now reads =>
    rcases ingestUpstreamEvent_cases actor store epoch method payload now
      reads with ⟨-, hlost⟩ | ⟨stored, next, happend, -, hstored, -⟩
    · simp [handle, hlost] at hevent
    · obtain ⟨-, hrow, -⟩ := EventTables.appendEvent_ok happend
      simp only [handle, hstored, map_some, some.injEq,
        ActorEvent.threadEvent.injEq] at hevent
      rw [← hevent, hrow]
      rfl
  | _ =>
    exact absurd hevent ((actor.handle_quiet digest store
      (by rintro _ _ _ _ _ ⟨⟩)).2 event)

/-- Snapshot and replay of an attach are of the actor's thread. -/
theorem attachClient_of (actor : ThreadActor) (store : EventStore)
    (deviceId : String) (mode : SubscriptionMode) (lastAckSeq : Nat)
    (reads : AttachReads) :
    let result :=
      (actor.attachClient store.toEventTables deviceId mode lastAckSeq reads).2
    result.snapshot.threadId = actor.threadId ∧
      ∀ event ∈ result.replay, event.Of actor.threadId := by
  intro result
  constructor
  · exact attach_snapshot_threadId _ store.toEventTables lastAckSeq reads
  · intro event hevent
    rw [(actor.attachClient_result store.toEventTables deviceId mode lastAckSeq
      reads).2] at hevent
    split at hevent
    · cases hevent
    · obtain ⟨stored, hstored, rfl⟩ := List.mem_map.mp hevent
      have hmem := EventTables.mem_of_mem_eventsAfter hstored
      exact ⟨EventTables.threadId_of_mem hmem, (store.dense.threadSeq_le hmem).1⟩

end ThreadActor

/-- Everything the host has broadcast, or is about to, is of its thread. -/
structure ThreadHost.Keeps (threadId : String) (host : ThreadHost) : Prop where
  thread : host.actor.threadId = threadId
  sent : ∀ event, .threadEvent event ∈ host.channel.sent → event.Of threadId
  unsent : ∀ event, host.unsent = some (.threadEvent event) →
    event.Of threadId

theorem ThreadHost.keeps_spawn (threadId : String) :
    (ThreadHost.spawn threadId).Keeps threadId where
  thread := rfl
  sent _ hevent := absurd hevent not_mem_nil
  unsent _ hevent := by cases hevent

theorem ThreadHost.Keeps.act {threadId : String} {host next : ThreadHost}
    (hkeeps : host.Keeps threadId) {digest : Json → String}
    {store nextStore : EventStore} {message : ThreadActorMessage}
    {reply : ActorReply}
    (hact : host.act digest store message = some (next, nextStore, reply)) :
    next.Keeps threadId := by
  obtain ⟨-, rfl, -, -⟩ := ThreadHost.act_eq_some hact
  refine ⟨?_, hkeeps.sent, ?_⟩
  · exact (host.actor.handle_threadId digest store message).trans hkeeps.thread
  · intro event hevent
    rw [← hkeeps.thread]
    exact host.actor.handle_event_of digest store message hevent

theorem ThreadHost.Keeps.broadcast {threadId : String} {host next : ThreadHost}
    (hkeeps : host.Keeps threadId) (hbroadcast : host.broadcast = some next) :
    next.Keeps threadId := by
  obtain ⟨sent, hunsent, rfl⟩ := map_eq_some_iff.mp hbroadcast
  refine ⟨hkeeps.thread, ?_, by rintro _ ⟨⟩⟩
  intro event hevent
  rcases mem_append.mp hevent with hold | hnew
  · exact hkeeps.sent event hold
  · exact hkeeps.unsent event
      (by rw [hunsent, mem_singleton.mp hnew])

/-- What the connection is waiting for; `hello` tells which of the two messages
attached it.  The reply to a command comes when its result has been broadcast,
`due` messages in all. -/
inductive SwitchPhase where
  | ready
  | attaching (hello : Bool) (mode : SubscriptionMode) (lastAckSeq : Nat)
  | attached (hello : Bool) (result : ThreadActor.AttachResult)
  | commanding (request : ThreadCommandRequest)
  | answered (result : ThreadCommandResult) (due : Nat)

/-- One connection among the hosts of all threads.  A host that nobody asked
for yet is as it will be spawned. -/
structure Switchboard where
  hosts : String → ThreadHost
  store : EventStore
  tracked : TrackedConnection
  phase : SwitchPhase

namespace Switchboard

def start (store : EventStore) : Switchboard :=
  ⟨.spawn, store, .new, .ready⟩

inductive Action where
  | actor (threadId : String) (message : ThreadActorMessage)
  | broadcast (threadId : String)
  | hello (resume : ResumeHint)
  | subscribe (subscribe : ThreadSubscribe)
  | attach (reads : ThreadActor.AttachReads)
  | finishAttach
  | receive
  | command (request : ThreadCommandRequest)
  | handleCommand (lookup : CommandLookup) (outside : CommandOutside)
  | finishCommand

def setHost (board : Switchboard) (threadId : String) (host : ThreadHost) :
    Switchboard :=
  { board with
    hosts := fun other => if other = threadId then host else board.hosts other }

/-- The actor of a thread handles a message. -/
def act (digest : Json → String) (board : Switchboard) (threadId : String)
    (message : ThreadActorMessage) : Option (Switchboard × ActorReply) :=
  ((board.hosts threadId).act digest board.store message).map fun acted =>
    ({ board.setHost threadId acted.1 with store := acted.2.1 }, acted.2.2)

def receiveStep (board : Switchboard) (threadId : String)
    (receiver : Receiver) : Option Switchboard :=
  match (board.hosts threadId).channel.recv channelCapacity receiver with
  | (.empty, _) => none
  | (.lagged _, next) =>
    some { board with tracked := board.tracked.advanceReceiver next }
  | (.message event, next) =>
    some { board with
      tracked := (board.tracked.receive event).advanceReceiver next }

section Run

variable (digest : Json → String) (deviceId : String)

/-- One step.  The receiver is always one on the channel of the subscribed
thread: the two variables are set together. -/
def step (board : Switchboard) : Action → Option Switchboard
  | .actor threadId message =>
    (board.act digest threadId message).map Prod.fst
  | .broadcast threadId =>
    (board.hosts threadId).broadcast.map (board.setHost threadId)
  | .hello resume =>
    match board.phase with
    | .ready =>
      some { board with
        tracked := board.tracked.beginHello resume
          (board.hosts resume.threadId).channel.subscribe
        phase := .attaching true .observer resume.lastAckSeq }
    | _ => none
  | .subscribe subscribe =>
    match board.phase with
    | .ready =>
      some { board with
        tracked := board.tracked.beginSubscribe subscribe
          (board.hosts subscribe.threadId).channel.subscribe
        phase := .attaching false subscribe.mode subscribe.lastAckSeq }
    | _ => none
  | .attach reads =>
    match board.phase, board.tracked.connection.subscribedThread with
    | .attaching hello mode lastAckSeq, some threadId =>
      match board.act digest threadId
          (.attachClient deviceId mode lastAckSeq reads) with
      | some (next, .attached result) =>
        some { next with phase := .attached hello result }
      | _ => none
    | _, _ => none
  | .finishAttach =>
    match board.phase with
    | .attached true result =>
      some { board with
        tracked := board.tracked.finishHello result, phase := .ready }
    | .attached false result =>
      some { board with
        tracked := board.tracked.finishSubscribe result, phase := .ready }
    | _ => none
  | .receive =>
    match board.phase, board.tracked.connection.subscribedThread,
        board.tracked.connection.actorEvents with
    | .ready, some threadId, some receiver =>
      board.receiveStep threadId receiver
    | _, _, _ => none
  | .command request =>
    match board.phase, board.tracked.connection.commandThread request with
    | .ready, some threadId =>
      some { board with
        tracked := board.tracked.beginCommand threadId
          (board.hosts threadId).channel.subscribe
        phase := .commanding request }
    | _, _ => none
  | .handleCommand lookup outside =>
    match board.phase, board.tracked.connection.subscribedThread with
    | .commanding request, some threadId =>
      match board.act digest threadId
          (.clientCommand deviceId request lookup outside) with
      | some (next, .answered result) =>
        some { next with
          phase := .answered result (next.hosts threadId).due }
      | _ => none
    | _, _ => none
  | .finishCommand =>
    match board.phase, board.tracked.connection.subscribedThread with
    | .answered result due, some threadId =>
      if due ≤ (board.hosts threadId).channel.sent.length then
        some { board with
          tracked := board.tracked.finishCommand result, phase := .ready }
      else none
    | _, _ => none

end Run

/-- A command does not take a cursor along to another thread. -/
def CursorStays (board : Switchboard) : Action → Prop
  | .command request =>
    ∀ threadId ∈ board.tracked.connection.commandThread request,
      board.tracked.connection.subscribedThread = some threadId ∨
        board.tracked.connection.lastForwardedSeq = 0
  | _ => True

instance (board : Switchboard) :
    (action : Action) → Decidable (board.CursorStays action)
  | .command request =>
    inferInstanceAs (Decidable (∀ threadId ∈
      board.tracked.connection.commandThread request,
        board.tracked.connection.subscribedThread = some threadId ∨
          board.tracked.connection.lastForwardedSeq = 0))
  | .actor .. | .broadcast _ | .hello _ | .subscribe _ | .attach _
  | .finishAttach | .receive | .handleCommand .. | .finishCommand =>
    inferInstanceAs (Decidable True)

/-- The invariant of the switchboard.  A connection on a thread has a cursor
about that thread, and what it was attached with is of that thread. -/
structure Sound (board : Switchboard) : Prop where
  hosts : ∀ threadId, (board.hosts threadId).Keeps threadId
  own : board.tracked.connection.lastForwardedSeq = 0 ∨
    board.tracked.cursorThread = board.tracked.connection.subscribedThread
  fair : ∀ comparison ∈ board.tracked.compared, comparison.Fair
  attached : ∀ hello result, board.phase = .attached hello result →
    ∃ threadId, board.tracked.connection.subscribedThread = some threadId ∧
      result.snapshot.threadId = threadId ∧
      ∀ event ∈ result.replay, event.Of threadId

theorem sound_start (store : EventStore) : (start store).Sound where
  hosts := ThreadHost.keeps_spawn
  own := Or.inl rfl
  fair _ hcomparison := absurd hcomparison not_mem_nil
  attached _ _ hphase := by cases hphase

section

variable {board : Switchboard} {digest : Json → String} {next : Switchboard}
  {threadId : String}

theorem Sound.follows (hsound : board.Sound)
    (hthread : board.tracked.connection.subscribedThread = some threadId) :
    board.tracked.Follows threadId := by
  have hown := hsound.own
  rw [hthread] at hown
  exact ⟨hthread, hown, hsound.fair⟩

/-- A connection that follows a thread makes a sound board in any phase but the
attached one. -/
theorem Sound.of_follows {board : Switchboard} (hsound : board.Sound)
    {tracked : TrackedConnection} {threadId : String}
    (hfollows : tracked.Follows threadId) {phase : SwitchPhase}
    (hphase : ∀ hello result, phase ≠ .attached hello result) :
    ({ board with tracked := tracked, phase := phase } : Switchboard).Sound := by
  refine ⟨hsound.hosts, ?_, hfollows.fair, ?_⟩
  · rw [hfollows.subscribed]
    exact hfollows.own
  · intro hello result hattached
    exact absurd hattached (hphase hello result)

theorem Sound.setHost (hsound : board.Sound) {host : ThreadHost}
    (hkeeps : host.Keeps threadId) (store : EventStore) :
    ({ board.setHost threadId host with store := store } :
      Switchboard).Sound := by
  refine ⟨?_, hsound.own, hsound.fair, hsound.attached⟩
  intro other
  simp only [Switchboard.setHost]
  by_cases hother : other = threadId
  · rw [if_pos hother, hother]
    exact hkeeps
  · rw [if_neg hother]
    exact hsound.hosts other

theorem Sound.act (hsound : board.Sound) {message : ThreadActorMessage}
    {reply : ActorReply}
    (hact : board.act digest threadId message = some (next, reply)) :
    next.Sound ∧ next.tracked = board.tracked ∧ next.phase = board.phase ∧
      reply = ((board.hosts threadId).actor.handle digest board.store
        message).reply := by
  obtain ⟨⟨host, store, answer⟩, hhost, heq⟩ :=
    map_eq_some_iff.mp hact
  rw [Prod.mk.injEq] at heq
  obtain ⟨-, -, -, hreply⟩ := ThreadHost.act_eq_some hhost
  rw [← heq.1, ← heq.2]
  exact ⟨hsound.setHost ((hsound.hosts threadId).act hhost) store, rfl, rfl,
    hreply⟩

theorem sound_receive (hsound : board.Sound) (hphase : board.phase = .ready)
    (hthread : board.tracked.connection.subscribedThread = some threadId)
    {receiver : Receiver}
    (hstep : board.receiveStep threadId receiver = some next) : next.Sound := by
  have hfollows := hsound.follows hthread
  have hready : ∀ hello result, board.phase ≠ .attached hello result := by
    intro hello result hattached
    rw [hphase] at hattached
    cases hattached
  unfold receiveStep at hstep
  split at hstep
  · cases hstep
  · rw [← some.inj hstep]
    exact hsound.of_follows (hfollows.advanceReceiver _) hready
  · rename_i event receiver hrecv
    rw [← some.inj hstep]
    have hevent : ∀ threadEvent, event = .threadEvent threadEvent →
        threadEvent.Of threadId := by
      rintro threadEvent rfl
      exact (hsound.hosts threadId).sent _ (Broadcast.mem_of_recv hrecv)
    exact hsound.of_follows
      ((hfollows.receive hevent).advanceReceiver receiver) hready

theorem sound_attach {deviceId : String} (hsound : board.Sound)
    (hthread : board.tracked.connection.subscribedThread = some threadId)
    {mode : SubscriptionMode} {lastAckSeq : Nat}
    {reads : ThreadActor.AttachReads} {result : ThreadActor.AttachResult}
    (hact : board.act digest threadId (.attachClient deviceId mode lastAckSeq
      reads) = some (next, .attached result)) (hello : Bool) :
    ({ next with phase := .attached hello result } : Switchboard).Sound := by
  obtain ⟨hacted, htracked, -, hreply⟩ := hsound.act hact
  have hresult := ActorReply.attached.inj hreply
  have hof := (board.hosts threadId).actor.attachClient_of board.store deviceId
    mode lastAckSeq reads
  rw [(hsound.hosts threadId).thread] at hof
  refine ⟨hacted.hosts, hacted.own, hacted.fair, ?_⟩
  intro hello' result' hattached
  obtain ⟨-, rfl⟩ := SwitchPhase.attached.inj hattached
  refine ⟨threadId, ?_, ?_⟩
  · rw [htracked]
    exact hthread
  · rw [hresult]
    exact hof

theorem sound_step {deviceId : String} {action : Action} (hsound : board.Sound)
    (hok : board.CursorStays action)
    (hstep : board.step digest deviceId action = some next) : next.Sound := by
  cases action with
  | actor threadId message =>
    obtain ⟨⟨acted, reply⟩, hact, rfl⟩ := map_eq_some_iff.mp hstep
    exact (hsound.act hact).1
  | broadcast threadId =>
    obtain ⟨host, hbroadcast, rfl⟩ := map_eq_some_iff.mp hstep
    exact hsound.setHost ((hsound.hosts threadId).broadcast hbroadcast)
      board.store
  | hello resume =>
    rw [step] at hstep
    split at hstep
    · rw [← some.inj hstep]
      have hfollows : (board.tracked.beginHello resume
          (board.hosts resume.threadId).channel.subscribe).Follows
            resume.threadId := ⟨rfl, Or.inr rfl, hsound.fair⟩
      exact hsound.of_follows hfollows (by rintro _ _ ⟨⟩)
    · cases hstep
  | subscribe subscribe =>
    rw [step] at hstep
    split at hstep
    · rw [← some.inj hstep]
      have hfollows : (board.tracked.beginSubscribe subscribe
          (board.hosts subscribe.threadId).channel.subscribe).Follows
            subscribe.threadId := ⟨rfl, Or.inr rfl, hsound.fair⟩
      exact hsound.of_follows hfollows (by rintro _ _ ⟨⟩)
    · cases hstep
  | attach reads =>
    rw [step] at hstep
    split at hstep
    · rename_i hello mode lastAckSeq threadId hphase hthread
      split at hstep
      · rename_i hact
        rw [← some.inj hstep]
        exact sound_attach hsound hthread hact hello
      · cases hstep
    · cases hstep
  | finishAttach =>
    rw [step] at hstep
    split at hstep
    · rename_i result hphase
      rw [← some.inj hstep]
      obtain ⟨threadId, hthread, -, hreplay⟩ :=
        hsound.attached true result hphase
      exact hsound.of_follows
        ((hsound.follows hthread).forwardReplay hreplay) (by rintro _ _ ⟨⟩)
    · rename_i result hphase
      rw [← some.inj hstep]
      obtain ⟨threadId, hthread, hsnapshot, hreplay⟩ :=
        hsound.attached false result hphase
      exact hsound.of_follows
        ((hsound.follows hthread).finishSubscribe hsnapshot hreplay)
        (by rintro _ _ ⟨⟩)
    · cases hstep
  | receive =>
    rw [step] at hstep
    split at hstep
    · rename_i threadId receiver hphase hthread hreceiver
      exact sound_receive hsound hphase hthread hstep
    · cases hstep
  | command request =>
    rw [step] at hstep
    split at hstep
    · rename_i threadId hphase hthread
      rw [← some.inj hstep]
      -- the cursor belongs to the thread already, or there is none
      have hown : board.tracked.connection.lastForwardedSeq = 0 ∨
          board.tracked.cursorThread = some threadId := by
        rcases hok threadId hthread with hsame | hzero
        · rw [← hsame]
          exact hsound.own
        · exact Or.inl hzero
      have hfollows : (board.tracked.beginCommand threadId
          (board.hosts threadId).channel.subscribe).Follows threadId :=
        ⟨rfl, hown, hsound.fair⟩
      exact hsound.of_follows hfollows (by rintro _ _ ⟨⟩)
    · cases hstep
  | handleCommand lookup outside =>
    rw [step] at hstep
    split at hstep
    · split at hstep
      · rename_i hact
        rw [← some.inj hstep]
        have hacted := (hsound.act hact).1
        exact ⟨hacted.hosts, hacted.own, hacted.fair, by rintro _ _ ⟨⟩⟩
      · cases hstep
    · cases hstep
  | finishCommand =>
    rw [step] at hstep
    split at hstep
    · split at hstep
      · rw [← some.inj hstep]
        exact ⟨hsound.hosts, hsound.own, hsound.fair, by rintro _ _ ⟨⟩⟩
      · cases hstep
    · cases hstep

end

/-- In every run in which no command carries a cursor over to another thread,
every event is held against a cursor of its own thread or against none, so one
that is suppressed is suppressed by a number of its own thread. -/
theorem cursor_compares_own_thread {digest : Json → String}
    {deviceId : String} {store : EventStore} {actions : List Action}
    {finish : Switchboard}
    (run : GuardedRun (step digest deviceId) CursorStays (start store) actions
      finish) :
    ∀ comparison ∈ finish.tracked.compared,
      (comparison.cursor = 0 ∨
        comparison.cursorThread = some comparison.event.threadId) ∧
      (comparison.event.seq ≤ comparison.cursor →
        comparison.cursorThread = some comparison.event.threadId) := by
  have hsound : finish.Sound := by
    induction run with
    | nil => exact sound_start store
    | snoc run hok hstep ih => exact sound_step ih hok hstep
  intro comparison hcomparison
  obtain ⟨hpositive, hown⟩ := hsound.fair comparison hcomparison
  refine ⟨hown, ?_⟩
  intro hsuppressed
  rcases hown with hzero | hthread
  · omega
  · exact hthread

namespace SecondThread

/-- The digest of `writer.acquire`. -/
def digest : Json → String := fun _ =>
  "b2ddc83482bfb22a841e60a9430eb2ac" ++
  "f6c05d01162a0f68e14543d115e6f878"

def ingest (threadId : String) : List Action :=
  [.actor threadId (.upstreamEvent 1 "item/started" .null 0 none),
    .broadcast threadId]

def reads : ThreadActor.AttachReads := ⟨[], none, false, false, false⟩

def subscribe (threadId : String) : List Action :=
  [.subscribe ⟨threadId, 0, .observer⟩, .attach reads, .finishAttach]

def request : ThreadCommandRequest :=
  ⟨"key-1", some "thread-b", none, .writerAcquire⟩

def outside : CommandOutside :=
  ⟨none, .ok .null, .ok none, 1, .ok (.ok (.str "lease-1")), false⟩

def command : List Action :=
  [.command request, .handleCommand ⟨none, none⟩ outside,
    .broadcast "thread-b", .finishCommand]

def event (threadId : String) (seq : Nat) : ThreadEvent :=
  ⟨seq, threadId, 1, "item/started", 0, none, none, .null⟩

/-- The client watches a thread with two events and then takes the writer lease
of another one.  The first event of that one is held against the two, and not
sent. -/
theorem command_suppresses_event :
    (runActions (step digest "phone") (start .empty)
        (ingest "thread-a" ++ ingest "thread-a" ++ subscribe "thread-a" ++
          command ++ ingest "thread-b" ++ [.receive, .receive])).map
      (fun board => (board.tracked.connection.subscribedThread,
        board.tracked.connection.lastForwardedSeq,
        decide (Outbound.threadEvent (event "thread-b" 1) ∈
          board.tracked.connection.outbox),
        board.tracked.compared)) =
    some (some "thread-b", 2, false,
      [⟨event "thread-b" 1, 2, some "thread-a"⟩]) := by
  decide +kernel

/-- With a subscription before the command the event is compared with, and
sent after, nothing of its own thread. -/
theorem subscribed_event_compared :
    ∃ finish, GuardedRun (step digest "phone") CursorStays (start .empty)
        (ingest "thread-a" ++ ingest "thread-a" ++ subscribe "thread-a" ++
          subscribe "thread-b" ++ command ++ ingest "thread-b" ++
          [.receive, .receive]) finish ∧
      .threadEvent (event "thread-b" 1) ∈ finish.tracked.connection.outbox ∧
      ∀ comparison ∈ finish.tracked.compared,
        (comparison.cursor = 0 ∨
          comparison.cursorThread = some comparison.event.threadId) ∧
        (comparison.event.seq ≤ comparison.cursor →
          comparison.cursorThread = some comparison.event.threadId) := by
  have hsent : (runGuarded (step digest "phone")
      (fun board action => decide (board.CursorStays action)) (start .empty)
      (ingest "thread-a" ++ ingest "thread-a" ++ subscribe "thread-a" ++
        subscribe "thread-b" ++ command ++ ingest "thread-b" ++
        [.receive, .receive])).map (fun board =>
          decide (Outbound.threadEvent (event "thread-b" 1) ∈
            board.tracked.connection.outbox)) = some true := by
    decide +kernel
  obtain ⟨finish, hrun, hmem⟩ := map_eq_some_iff.mp hsent
  have run := guardedRun_of_runGuarded
    (fun _ _ hcheck => of_decide_eq_true hcheck) hrun
  exact ⟨finish, run, of_decide_eq_true hmem, cursor_compares_own_thread run⟩

end SecondThread

end Switchboard

end Vellum.Broker
