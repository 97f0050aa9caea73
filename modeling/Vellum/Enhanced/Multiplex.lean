/-
Several frontends on one pair of cores (`enhanced_runtime/multiplex.rs`).  The
request ids of a frontend are translated before the bridge sees them and are
translated back in the answer; a connection that is closed takes its ids with
it.
-/
import Vellum.Enhanced.ThreadRouting

namespace Vellum.Enhanced

/-- The connection a request came from, with the id and method it had. -/
structure PendingRequest where
  client : Nat
  id : Json
  method : String
deriving DecidableEq

structure Ids where
  next : Nat
  requests : HashMap Json PendingRequest
  approvals : HashMap Json Nat

/-- `value["id"]`. -/
def idOf (value : Json) : Json := (value.get "id").getD .null

def clientRequestId (client n : Nat) : String :=
  "vellum:client:" ++ toString client ++ ":" ++ toString n

namespace Ids

def empty : Ids := ⟨0, HashMap.empty, HashMap.empty⟩

/-- A client's answer needs an approval; its request gets an id of the
multiplexer. -/
def request (ids : Ids) (client : Nat) (value : Json) :
    Except BridgeError (Ids × Json) :=
  if (value.get "method").isNone then
    if ids.approvals.get (idOf value) = some client then
      .ok ({ ids with approvals := ids.approvals.remove (idOf value) }, value)
    else .error (.protocol "server response belongs to another connection")
  else
    match value.get "id" with
    | none => .ok (ids, value)
    | some id =>
      let translated := .str (clientRequestId client ids.next)
      .ok ({ ids with
          next := ids.next + 1
          requests := ids.requests.insert translated
            ⟨client, id, methodOf value⟩ },
        setField "id" translated value)

/-- A message for the client, with the id the client knows, and the method of
the request it answers. -/
def response (ids : Ids) (client : Nat) (value : Json) :
    Except BridgeError (Ids × Json × Option String) :=
  if (value.get "method").isSome then
    match value.get "id" with
    | some id => .ok (
        { ids with approvals := ids.approvals.insert id client }, value, none)
    | none => .ok (ids, value, none)
  else
    match ids.requests.get (idOf value) with
    | none => .error (.protocol "unsolicited child response")
    | some pending =>
      if pending.client ≠ client then
        .error (.protocol "response connection mismatch")
      else
        .ok ({ ids with requests := ids.requests.remove (idOf value) },
          setField "id" pending.id value, some pending.method)

def disconnect (ids : Ids) (client : Nat) : Ids :=
  { ids with
    requests := ids.requests.retain fun _ pending => pending.client ≠ client
    approvals := ids.approvals.retain fun _ holder => holder ≠ client }

end Ids

/-- The state of the event loop.  Connection 0 is the desktop. -/
structure Multiplexer where
  bridge : BridgeState
  ids : Ids
  clients : HashSet Nat
  sockets : HashSet (Nat × ExecutionPlane)
  failedSockets : HashSet (Nat × ExecutionPlane)

/-- What an event reads besides itself: whether a core takes a connection, and
whether it takes a message in time. -/
structure MultiplexReads where
  bridge : BridgeReads
  connects : ExecutionPlane → Bool
  sends : ExecutionPlane → Bool

inductive MultiplexEvent where
  | client (client : Nat) (value : Json)
  | child (client : Nat) (plane : ExecutionPlane) (value : Json)
  | control (value : Json)
  | opened (client : Nat)
  | closed (client : Nat)
  | socketClosed (client : Nat) (plane : ExecutionPlane)
  | relayClosed
  | exited (plane : ExecutionPlane)

/-- What the loop sends. -/
inductive Delivery where
  | toCore (client : Nat) (plane : ExecutionPlane) (value : Json)
  | toRelay (value : Json)
  | toClient (client : Nat) (value : Json)
deriving DecidableEq

def coreError (id : Json) (message : String) : Json :=
  jsonRpcError id (-32074) message

def coreUnavailable : String :=
  "Core connection unavailable; reconnect and initialize before retrying"

def coreConnectionFailed : String := "Authenticated core connection failed"

def runtimeFailed (plane : ExecutionPlane) (message : String) : Json :=
  .obj [("method", .str "vellum/runtimeFailed"),
    ("params", .obj [("plane", .str plane.asStr), ("message", .str message)])]

def coreStalled : String :=
  "Core transport stalled; outstanding operation results may be unknown"

def coreClosed : String :=
  "Core connection closed; request outcome may be unknown"

/-- Only the desktop manages pairings. -/
def remoteControlRefusal (id : Json) : Json :=
  jsonRpcError id (-32600) "Remote Control management requires Desktop"

namespace Multiplexer

def new (bridge : BridgeState) : Multiplexer where
  bridge := bridge
  ids := Ids.empty
  clients := HashMap.empty.insert 0 ()
  sockets := HashMap.empty
  failedSockets := HashMap.empty

variable (mux : Multiplexer) (reads : MultiplexReads)

variable (client : Nat) (plane : ExecutionPlane)

/-- Answer a request that could not be sent. -/
def refuse (id : Json) (message : String) : Multiplexer × List Delivery :=
  match mux.ids.response client (coreError id message) with
  | .ok (ids, answer, _) => ({ mux with ids }, [.toClient client answer])
  | .error _ => (mux, [])

/-- A connection to a core is made by `initialize` only, and a failed one is
not made again. -/
def unreachable (value : Json) : Bool :=
  mux.failedSockets.contains (client, plane) ||
    !mux.sockets.contains (client, plane) && methodOf value ≠ "initialize"

def toChild (value : Json) : Multiplexer × List Delivery :=
  if mux.unreachable client plane value then
    if (value.get "id").isSome then
      mux.refuse client (idOf value) coreUnavailable
    else (mux, [])
  else if !mux.sockets.contains (client, plane) && !reads.connects plane then
    refuse { mux with
      failedSockets := mux.failedSockets.insert (client, plane) () }
      client (idOf value) coreConnectionFailed
  else if reads.sends plane then
    ({ mux with sockets := mux.sockets.insert (client, plane) () },
      [.toCore client plane value])
  else
    ({ mux with
        sockets := mux.sockets.remove (client, plane)
        failedSockets := mux.failedSockets.insert (client, plane) () },
      [.toClient client (runtimeFailed plane coreStalled)])

/-- The desktop's account answer points to the live backend relay. -/
def routeDesktopAccountRead (method : Option String)
    (relayOrigin : Option String) (response : Json) : Json :=
  if client = 0 ∧ method = some "account/read" then
    routeDesktopBackendToRelay relayOrigin response
  else response

def toClient (mux : Multiplexer) (reads : MultiplexReads) (client : Nat)
    (value : Json) : Multiplexer × List Delivery :=
  match mux.ids.response client value with
  | .ok (ids, answer, method) => ({ mux with ids }, [.toClient client
      (routeDesktopAccountRead client method reads.bridge.relayOrigin answer)])
  | .error _ => (mux, [])

def perform : BridgeAction → Multiplexer × List Delivery
  | .toChild plane value => mux.toChild reads client plane value
  | .toRelay value => (mux, [.toRelay value])
  | .toClient value => mux.toClient reads client value

def performAll (reads : MultiplexReads) (client : Nat) :
    List BridgeAction → Multiplexer → Multiplexer × List Delivery
  | [], mux => (mux, [])
  | action :: rest, mux =>
    let (mux, sent) := mux.perform reads client action
    let (mux, more) := performAll reads client rest mux
    (mux, sent ++ more)

/-- A line the bridge accepted is carried out, a refused one is answered. -/
def onClient (value : Json) : Multiplexer × List Delivery :=
  if !mux.clients.contains client then (mux, [])
  else if client ≠ 0 ∧ isRemoteControl (methodOf value) then
    (mux, [.toClient client (remoteControlRefusal (idOf value))])
  else
    match mux.ids.request client value with
    | .error error => (mux, [.toClient client (clientError (.ok value) error)])
    | .ok (ids, translated) =>
      match mux.bridge.onClientValue reads.bridge.print translated with
      | (bridge, .error error) => ({ mux with ids, bridge },
          [.toClient client (clientError (.ok value) error)])
      | (bridge, .ok actions) =>
        performAll reads client actions { mux with ids, bridge }

/-- A line that fails is dropped.  The account answer is routed on delivery
here, not by the bridge. -/
def onChild (value : Json) : Multiplexer × List Delivery :=
  if !mux.clients.contains client then (mux, [])
  else
    match mux.bridge.onChildValue { reads.bridge with relayOrigin := none }
        plane value with
    | (bridge, .error _) => ({ mux with bridge }, [])
    | (bridge, .ok actions) => performAll reads client actions { mux with bridge }

/-- What the relay answers goes to the desktop. -/
def onControl (value : Json) : Multiplexer × List Delivery :=
  match mux.ids.response 0 value with
  | .ok (ids, answer, _) => ({ mux with ids }, [.toClient 0 answer])
  | .error _ => (mux, [])

def close : Multiplexer :=
  { mux with
    ids := mux.ids.disconnect client
    clients := mux.clients.remove client
    sockets := mux.sockets.retain fun socket _ => socket.1 ≠ client
    failedSockets := mux.failedSockets.retain fun socket _ => socket.1 ≠ client }

/-- A socket that closed is not opened again for its connection. -/
def onSocketClosed : Multiplexer × List Delivery :=
  if !mux.clients.contains client then (mux, [])
  else
    ({ mux with
        sockets := mux.sockets.remove (client, plane)
        failedSockets := mux.failedSockets.insert (client, plane) () },
      [.toClient client (runtimeFailed plane coreClosed)])

/-- Every connection but the desktop's goes with the relay. -/
def onRelayClosed : Multiplexer :=
  let remote := (mux.clients.rows.map Prod.fst).filter (· ≠ 0)
  { mux with
    ids := remote.foldl Ids.disconnect mux.ids
    clients := mux.clients.retain fun client _ => client = 0
    sockets := mux.sockets.retain fun socket _ => socket.1 = 0 }

def step : MultiplexEvent → Multiplexer × List Delivery
  | .client client value => mux.onClient reads client value
  | .child client plane value => mux.onChild reads client plane value
  | .control value => mux.onControl value
  | .opened client => ({ mux with clients := mux.clients.insert client () }, [])
  | .closed client => (mux.close client, [])
  | .socketClosed client plane => mux.onSocketClosed client plane
  | .relayClosed => (mux.onRelayClosed, [])
  | .exited plane => ({ mux with bridge := mux.bridge.markChildExited plane }, [])

/-- Replay events, each with what it reads. -/
def run (mux : Multiplexer) :
    List (MultiplexReads × MultiplexEvent) → Multiplexer
  | [] => mux
  | (reads, event) :: rest => run (mux.step reads event).1 rest

end Multiplexer

end Vellum.Enhanced
