/-
What passes between the frontends and the cores while the multiplexer runs:
the requests of every connection and the responses it receives, the requests of
the cores and the answers they get.  A connection is its number together with
how often the number was closed before, since the relay uses numbers again.
-/
import Vellum.Enhanced.RefusedRequests

namespace Vellum.Enhanced

abbrev Connection := Nat × Nat

/-- A request or a response of a connection, with the id it has there; `key` is
the id that the cores know it by. -/
structure Message where
  key : Option Json
  connection : Connection
  id : Json

/-- A request of a core or the answer to it, with the id it has there; `token`
is the id that the frontends know it by and `core` tells the connections to
the core apart. -/
structure ServerMessage where
  token : Json
  connection : Connection
  core : Nat
  plane : ExecutionPlane
  id : Json

/-- Refused are the requests that the bridge failed on. -/
structure History where
  generation : Nat → Nat
  sent : List Message
  received : List Message
  asked : List ServerMessage
  replied : List ServerMessage
  refused : List Json

/-- An event; `generation` is how often the number of the connection was closed
before the connection to the core was made that the event comes from. -/
structure Arrival where
  reads : MultiplexReads
  event : MultiplexEvent
  generation : Nat

namespace Multiplexer

/-- The id under which the bridge gets a request. -/
def translatedId (mux : Multiplexer) (client : Nat) (value : Json) :
    Option Json :=
  if client ≠ 0 ∧ isRemoteControl (methodOf value) then none
  else if (value.get "method").isSome && (value.get "id").isSome then
    some (.str (clientRequestId client mux.ids.next))
  else none

/-- The connections that an event closes. -/
def closes (mux : Multiplexer) : MultiplexEvent → List Nat
  | .closed client => [client]
  | .relayClosed => (mux.clients.rows.map Prod.fst).filter (· ≠ 0)
  | _ => []

end Multiplexer

/-- The id of the message that an event answers with. -/
def answeredKey : MultiplexEvent → Option Json
  | .child _ _ value => some (idOf value)
  | .control value => some (idOf value)
  | _ => none

def responses (key : Option Json) (generation : Nat → Nat)
    (deliveries : List Delivery) : List Message :=
  deliveries.filterMap fun delivery =>
    match delivery with
    | .toClient client value =>
      if (value.get "method").isNone then
        some ⟨key, (client, generation client), idOf value⟩
      else none
    | _ => none

def serverRequests (core : Nat) (plane : ExecutionPlane) (id : Json)
    (generation : Nat → Nat) (deliveries : List Delivery) :
    List ServerMessage :=
  deliveries.filterMap fun delivery =>
    match delivery with
    | .toClient client value =>
      if (value.get "method").isSome && (value.get "id").isSome then
        some ⟨idOf value, (client, generation client), core, plane, id⟩
      else none
    | _ => none

def replies (token : Json) (generation : Nat → Nat)
    (deliveries : List Delivery) : List ServerMessage :=
  deliveries.filterMap fun delivery =>
    match delivery with
    | .toCore client plane value =>
      if (value.get "method").isNone then
        some ⟨token, (client, generation client), generation client, plane,
          idOf value⟩
      else none
    | _ => none

namespace History

def empty : History := ⟨fun _ => 0, [], [], [], [], []⟩

variable (history : History) (mux : Multiplexer)

def sentBy : MultiplexEvent → List Message
  | .client client value =>
    if mux.clients.contains client then
      [⟨mux.translatedId client value, (client, history.generation client),
        idOf value⟩]
    else []
  | _ => []

def askedBy (arrival : Arrival) (deliveries : List Delivery) :
    List ServerMessage :=
  match arrival.event with
  | .child _ plane value =>
    serverRequests arrival.generation plane (idOf value) history.generation
      deliveries
  | _ => []

def repliedBy (event : MultiplexEvent) (deliveries : List Delivery) :
    List ServerMessage :=
  match event with
  | .client _ value => replies (idOf value) history.generation deliveries
  | _ => []

def refusedBy (reads : MultiplexReads) : MultiplexEvent → List Json
  | .client client value =>
    match mux.clients.contains client, mux.translatedId client value with
    | true, some key =>
      match (mux.bridge.onClientValue reads.bridge.print
          (setField "id" key value)).2 with
      | .error _ => [key]
      | .ok _ => []
    | _, _ => []
  | _ => []

def record (arrival : Arrival) : History :=
  let deliveries := (mux.step arrival.reads arrival.event).2
  { generation := fun client =>
      if client ∈ mux.closes arrival.event then history.generation client + 1
      else history.generation client
    sent := history.sent ++ history.sentBy mux arrival.event
    received := history.received ++
      responses (answeredKey arrival.event) history.generation deliveries
    asked := history.asked ++ history.askedBy arrival deliveries
    replied := history.replied ++ history.repliedBy arrival.event deliveries
    refused := history.refused ++ refusedBy mux arrival.reads arrival.event }

/-- Every response answers a request of its connection with the id it had
there, and no request is answered twice.  The errors that the loop makes itself
have no key; with them there are at most as many responses under an id as
requests. -/
structure ResponsesMatch (history : History) : Prop where
  keys_nodup : (history.sent.filterMap Message.key).Nodup
  own : ∀ response ∈ history.received, response.key.isSome = true →
    response ∈ history.sent
  once : (history.received.filterMap Message.key).Nodup
  counted : ∀ connection id,
    (history.received.countP fun response =>
        response.connection = connection ∧ response.id = id) ≤
      history.sent.countP fun request =>
        request.connection = connection ∧ request.id = id

/-- Every answer that a core gets is to a request which it made on that
connection to it, comes from the connection that was asked, and is the only
one. -/
structure RepliesMatch (history : History) : Prop where
  tokens_nodup : (history.asked.map ServerMessage.token).Nodup
  own : ∀ reply ∈ history.replied, reply ∈ history.asked
  once : (history.replied.map ServerMessage.token).Nodup

end History

/-- The multiplexer and what was seen of it. -/
structure Observed where
  mux : Multiplexer
  history : History

namespace Observed

def new (bridge : BridgeState) : Observed :=
  ⟨Multiplexer.new bridge, History.empty⟩

def step (observed : Observed) (arrival : Arrival) : Observed where
  mux := (observed.mux.step arrival.reads arrival.event).1
  history := observed.history.record observed.mux arrival

def run (observed : Observed) : List Arrival → Observed
  | [] => observed
  | arrival :: rest => run (observed.step arrival) rest

/-- A line or the end of a connection to a core that was made for an earlier
connection with the number. -/
def Late (observed : Observed) (arrival : Arrival) (client : Nat) : Prop :=
  ((∃ plane value, arrival.event = .child client plane value) ∨
    ∃ plane, arrival.event = .socketClosed client plane) ∧
  arrival.generation < observed.history.generation client

/-- Nothing of a late event is seen by the connection that has the number
now. -/
def LateEventVanishes (observed : Observed) (arrival : Arrival) : Prop :=
  ∀ client, observed.Late arrival client → ∀ plane,
    (observed.step arrival).mux.sockets.get (client, plane) =
        observed.mux.sockets.get (client, plane) ∧
      (observed.step arrival).mux.failedSockets.get (client, plane) =
        observed.mux.failedSockets.get (client, plane)

/-- While a number is open, its connections to cores end and ask only as those
of the connection that has it; nobody answers or asks under the id of a request
that was refused, and the relay does not ask under the id of a core's
request. -/
def InOrder (observed : Observed) (arrival : Arrival) : Prop :=
  match arrival.event with
  | .client _ value => value.get "method" = none → ∀ plane id,
      observed.mux.bridge.serverRequests.get (idOf value) = some (plane, id) →
      id ∉ observed.history.refused
  | .child client _ value =>
    if (value.get "method").isNone then
      idOf value ∉ observed.history.refused
    else (value.get "id").isSome → observed.mux.clients.contains client →
      arrival.generation = observed.history.generation client
  | .control value =>
    if (value.get "method").isNone then
      idOf value ∉ observed.history.refused
    else observed.mux.bridge.serverRequests.get (idOf value) = none
  | .socketClosed client _ => observed.mux.clients.contains client →
      arrival.generation = observed.history.generation client
  | _ => True

/-- Every event of the run is in order where it happens. -/
def AllInOrder (observed : Observed) : List Arrival → Prop
  | [] => True
  | arrival :: rest =>
    observed.InOrder arrival ∧ (observed.step arrival).AllInOrder rest

end Observed

end Vellum.Enhanced
