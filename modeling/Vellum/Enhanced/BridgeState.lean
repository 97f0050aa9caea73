/-
What a line from the client, a line from a child and the exit of a child do to
the bridge (`enhanced_runtime/app_server_bridge.rs`).  A line that fails keeps
what it changed before it failed.
-/
import Vellum.Enhanced.BridgeRouting

namespace Vellum.Enhanced

/-- What a line reads besides itself: the text of a JSON value, the origin of
the backend relay where the bridge may use it, and the time at which a thread
is bound. -/
structure BridgeReads where
  print : Json → String
  relayOrigin : Option String
  createdAt : String → Int

/-- What handling a line ends with. -/
abbrev Outcome := Except BridgeError (List BridgeAction)

namespace BridgeState

/-! Open turns. -/

variable (state : BridgeState) (print : Json → String)

/-- `self.open_turns.len() as u32`. -/
def publishOpenTurns : BridgeState :=
  { state with publishedOpenTurns := state.openTurns.len % 2 ^ 32 }

/-- Whether a turn request closes its turn by its response; `none` for another
method. -/
def closesOnResponse (method : String) : Option Bool :=
  if method = "turn/create" then some true
  else if method = "turn/start" then some false
  else none

def recordTurnRequest (id : Option Json) (request : TurnRequest) :
    BridgeState :=
  match id with
  | some id =>
    { state with turnRequests := state.turnRequests.insert id request }
  | none => state

def openTurn (method : String) (params : Json) (plane : ExecutionPlane)
    (id : Option Json) : BridgeState :=
  match closesOnResponse method, findThreadId params with
  | some closesOnResponse, some threadId =>
    let state := state.recordTurnRequest id ⟨threadId, closesOnResponse⟩
    publishOpenTurns
      { state with openTurns := state.openTurns.insert threadId plane }
  | _, _ => state

def closeTurn (threadId : String) : BridgeState :=
  if state.openTurns.contains threadId then
    publishOpenTurns
      { state with openTurns := state.openTurns.remove threadId }
  else state

variable (reads : BridgeReads) (plane : ExecutionPlane)

def markChildExited : BridgeState :=
  let state := publishOpenTurns
    { state with openTurns := state.openTurns.retain fun _ serving =>
        serving ≠ plane }
  match plane with
  | .officialCodex => { state with officialExited := true }
  | .enhancedCodex => { state with enhancedExited := true }

/-! Lines from the client. -/

def routeClientResponse (value : Json) : BridgeState × Outcome :=
  match value.get "id" with
  | none => (state, .error (.protocol "response without id"))
  | some id =>
    match state.serverRequests.get id with
    | none => (state, .error (.protocol
        ("unknown server request response id " ++ print id)))
    | some (plane, originalId) =>
      let state :=
        { state with serverRequests := state.serverRequests.remove id }
      match state.ensurePlaneAvailable plane with
      | .error error => (state, .error error)
      | .ok () =>
        (state, .ok [.toChild plane (setField "id" originalId value)])

/-- To both children, or to Official alone. -/
def broadcast (official enhanced : Json) : List BridgeAction :=
  if state.bridgeOnly then [.toChild .officialCodex official]
  else [.toChild .officialCodex official, .toChild .enhancedCodex enhanced]

def shadowInitializeId (n : Nat) : String :=
  "vellum:shadow:initialize:" ++ toString n

/-- Enhanced gets a copy of the request, under an id of the bridge. -/
def onInitialize (value : Json) : BridgeState × Outcome :=
  match value.get "id" with
  | none => (state, .error (.protocol "initialize request has no id"))
  | some id =>
    let state := { state with
      initializeRequests := state.initializeRequests.insert id () }
    if state.bridgeOnly then (state, .ok (state.broadcast value value))
    else
      let translated := .str (shadowInitializeId state.nextServerRequest)
      let state := { state with
        nextServerRequest := state.nextServerRequest + 1
        shadowRequests := state.shadowRequests.insert translated () }
      (state, .ok (state.broadcast value (setField "id" translated value)))

def readRateLimits (value : Json) : Outcome :=
  match value.get "id" with
  | none => .error (.protocol "rate limits request has no id")
  | some id => .ok [.toClient (.obj [("id", id),
      ("result", .obj [("rateLimits", .obj [])])])]

def recordAccountRead (method : String) (id : Option Json) : BridgeState :=
  match id with
  | some id =>
    if method = "account/read" then
      { state with accountReads := state.accountReads.insert id () }
    else state
  | none => state

def recordPending (id : Option Json) (pending : Option PendingBinding) :
    BridgeState :=
  match id, pending with
  | some id, some pending =>
    { state with pendingBindings := state.pendingBindings.insert id pending }
  | _, _ => state

/-- The request as the child gets it. -/
def forwarded (route : Route) (value : Json) : Json :=
  normalizeEnhancedGuardianConfig route.plane
    (match route.childProviderId with
    | some provider => setModelProvider provider value
    | none => value)

def forwardRequest (method : String) (value : Json) : BridgeState × Outcome :=
  let id := value.get "id"
  let state := state.recordAccountRead method id
  match state.routeMethod method (paramsOf value) with
  | .error error => (state, .error error)
  | .ok route =>
    match state.ensurePlaneAvailable route.plane with
    | .error error => (state, .error error)
    | .ok () =>
      ((state.openTurn method (paramsOf value) route.plane id).recordPending
        id route.pending,
        .ok [.toChild route.plane (forwarded route value)])

def onClientValue (value : Json) : BridgeState × Outcome :=
  if (value.get "method").isNone then state.routeClientResponse print value
  else
    let method := methodOf value
    if isRemoteControl method then (state, .ok [.toRelay value])
    else if method = "initialized" then
      (state, .ok (state.broadcast value value))
    else if method = "account/rateLimits/read" then
      (state, readRateLimits value)
    else if method = "initialize" then state.onInitialize value
    else state.forwardRequest method value

/-- A line is JSON, or the text of the parser's error. -/
def onClientLine (line : Except String Json) : BridgeState × Outcome :=
  match line with
  | .error message => (state, .error (.json message))
  | .ok value => state.onClientValue print value

/-! Lines from a child. -/

def serverRequestId (n : Nat) : String :=
  "vellum:" ++ plane.asStr ++ ":" ++ toString n

/-- A request of the child goes to the client under an id of the bridge. -/
def onServerRequest (originalId value : Json) : BridgeState × Outcome :=
  let translated := .str (serverRequestId plane state.nextServerRequest)
  ({ state with
      nextServerRequest := state.nextServerRequest + 1
      serverRequests := state.serverRequests.insert translated
        (plane, originalId) },
    .ok [.toClient (setField "id" translated value)])

/-- A completed turn closes before the notification's owner is looked at. -/
def closeCompletedTurn (method : String) (value : Json) : BridgeState :=
  if method = "turn/completed" then
    match (value.get "params").bind findThreadId with
    | some threadId => state.closeTurn threadId
    | none => state
  else state

/-- A notification reaches the client from the plane of its thread only; one
without a thread only from Official. -/
def deliverNotification (method : String) (value : Json) : Outcome :=
  match notificationOwnerThreadId method value with
  | some threadId =>
    match state.requireBinding threadId with
    | .error error => .error error
    | .ok binding =>
      .ok (if binding.plane ≠ plane then [] else [.toClient value])
  | none => .ok (if plane = .enhancedCodex then [] else [.toClient value])

/-- `vellum/` notifications are recorded elsewhere and go no further. -/
def onNotification (createdAt : String → Int) (plane : ExecutionPlane)
    (method : String) (value : Json) : BridgeState × Outcome :=
  if method = "account/rateLimits/updated" || startsWith method "vellum/" then
    (state, .ok [])
  else
    match state.bindSpawnedAgentThreads createdAt plane value with
    | (state, .error error) => (state, .error error)
    | (state, .ok ()) =>
      let state := state.closeCompletedTurn method value
      (state, state.deliverNotification plane method value)

/-- What a child answers the bridge's own `initialize` with is not for the
client, unless it failed. -/
def shadowAnswer (value : Json) : List BridgeAction :=
  match value.get "error" with
  | some error => [.toClient (.obj [("method", .str "vellum/runtimeFailed"),
      ("params", .obj [("plane", .str plane.asStr),
        ("message", .str (print error))])])]
  | none => []

/-- A turn that was refused never began, so it ends with the error. -/
def settleTurnRequest (id value : Json) : BridgeState :=
  match state.turnRequests.get id with
  | none => state
  | some turn =>
    let state :=
      { state with turnRequests := state.turnRequests.remove id }
    if turn.closesOnResponse || (value.get "error").isSome then
      state.closeTurn turn.threadId
    else state

/-- The binding that the response to a pending request makes. -/
def responseBinding (createdAt : String → Int) (pending : PendingBinding)
    (threadId : String) : ThreadRuntimeBinding :=
  .new threadId pending.plane (state.digest pending.plane) pending.providerId
    pending.modelId threadId (createdAt threadId)

def bindPending (createdAt : String → Int) (plane : ExecutionPlane)
    (id value : Json) : BridgeState × Outcome :=
  match state.pendingBindings.get id with
  | none => (state, .ok [.toClient value])
  | some pending =>
    let state :=
      { state with pendingBindings := state.pendingBindings.remove id }
    if pending.plane ≠ plane then
      (state, .error (.protocol "response came from wrong runtime"))
    else if (value.get "error").isSome then (state, .ok [.toClient value])
    else
      match responseThreadId value with
      | .error error => (state, .error error)
      | .ok returned =>
        match pending.expectedThreadId.filter (· ≠ returned) with
        | some expected => (state, .error (.protocol ("resume returned " ++
            "thread " ++ returned ++ ", expected " ++ expected)))
        | none =>
          match state.store.insertImmutable
              (state.responseBinding createdAt pending returned) with
          | .ok store => ({ state with store }, .ok [.toClient value])
          | .error error => (state,
              .ok [.toClient (jsonRpcError id (-32071) error.text)])

def onResponse (id value : Json) : BridgeState × Outcome :=
  if state.shadowRequests.contains id then
    ({ state with shadowRequests := state.shadowRequests.remove id },
      .ok (shadowAnswer reads.print plane value))
  else
    let answer :=
      if state.accountReads.contains id then
        routeDesktopBackendToRelay reads.relayOrigin value
      else value
    let state := { state with
      initializeRequests := state.initializeRequests.remove id
      accountReads := state.accountReads.remove id }
    (state.settleTurnRequest id answer).bindPending reads.createdAt plane id
      answer

def onChildValue (value : Json) : BridgeState × Outcome :=
  match value.get "method", value.get "id" with
  | some _, some id => state.onServerRequest plane id value
  | some (.str method), none =>
    state.onNotification reads.createdAt plane method value
  | none, some id => state.onResponse reads plane id value
  | _, none => (state, .ok [.toClient value])

def onChildLine (line : Except String Json) : BridgeState × Outcome :=
  match line with
  | .error message => (state, .error (.json message))
  | .ok value => state.onChildValue reads plane value

end BridgeState

end Vellum.Enhanced
