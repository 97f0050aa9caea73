/-
The state of the app-server bridge, and how it decides which child serves a
request and which threads it binds
(`enhanced_runtime/app_server_bridge.rs`).  A thread is bound by the response
to the request that started, resumed or forked it, or by a notification that
announces a spawned child.
-/
import Vellum.Enhanced.BridgeMessages

namespace Vellum.Enhanced

/-- The binding a request makes once its response names the thread. -/
structure PendingBinding where
  plane : ExecutionPlane
  providerId : String
  modelId : String
  expectedThreadId : Option String
deriving DecidableEq

/-- A turn request the client sent and the child has not answered. -/
structure TurnRequest where
  threadId : String
  closesOnResponse : Bool

/-- The tables are keyed by the JSON value of an id where the source keys them
by its text.  Of the attestation only the count of open turns is kept. -/
structure BridgeState where
  store : ThreadRuntimeBindingStore
  providers : TrustedProviderSet
  officialDigest : String
  enhancedDigest : String
  modelProviderMap : TrustedModelProviderMap
  pendingBindings : HashMap Json PendingBinding
  openTurns : HashMap String ExecutionPlane
  turnRequests : HashMap Json TurnRequest
  shadowRequests : HashSet Json
  initializeRequests : HashSet Json
  accountReads : HashSet Json
  serverRequests : HashMap Json (ExecutionPlane × Json)
  nextServerRequest : Nat
  officialExited : Bool
  enhancedExited : Bool
  publishedOpenTurns : Nat

inductive BridgeAction where
  | toChild (plane : ExecutionPlane) (value : Json)
  | toRelay (value : Json)
  | toClient (value : Json)
deriving DecidableEq

namespace BridgeState

/-- `BridgeState::new`. -/
def new (store : ThreadRuntimeBindingStore) (providers : TrustedProviderSet)
    (officialDigest enhancedDigest : String)
    (modelProviderMap : TrustedModelProviderMap) : BridgeState where
  store := store
  providers := providers
  officialDigest := officialDigest
  enhancedDigest := enhancedDigest
  modelProviderMap := modelProviderMap
  pendingBindings := HashMap.empty
  openTurns := HashMap.empty
  turnRequests := HashMap.empty
  shadowRequests := HashMap.empty
  initializeRequests := HashMap.empty
  accountReads := HashMap.empty
  serverRequests := HashMap.empty
  nextServerRequest := 1
  officialExited := false
  enhancedExited := false
  publishedOpenTurns := 0

variable (state : BridgeState) (params : Json)

/-- A launch without an Enhanced core. -/
def bridgeOnly : Bool := state.enhancedDigest.isEmpty

def digest : ExecutionPlane → String
  | .officialCodex => state.officialDigest
  | .enhancedCodex => state.enhancedDigest

def hasExited : ExecutionPlane → Bool
  | .officialCodex => state.officialExited
  | .enhancedCodex => state.enhancedExited

def ensurePlaneAvailable (plane : ExecutionPlane) : Except BridgeError Unit :=
  if state.hasExited plane then .error (.runtimeUnavailable plane) else .ok ()

/-- A launch without an Enhanced core serves every thread through Official;
the stored binding stays as it is. -/
def effectiveBinding (binding : ThreadRuntimeBinding) : ThreadRuntimeBinding :=
  if state.bridgeOnly then
    { binding with
      plane := .officialCodex, runtimeDigest := state.officialDigest }
  else binding

def requireBinding (threadId : String) :
    Except BridgeError ThreadRuntimeBinding :=
  match state.store.get threadId with
  | some binding => .ok (state.effectiveBinding binding)
  | none => .error (.unboundThread threadId)

/-! Routing of a client request. -/

def ensureProviderDoesNotSwitch (binding : ThreadRuntimeBinding) :
    Except BridgeError (Option String) :=
  let modelId := (stringField "model" params).getD binding.modelId
  match state.modelProviderMap.resolve modelId with
  | some route =>
    if staysWithProvider route.providerId binding.providerId then
      .ok (some route.childProviderId)
    else .error (.providerSwitchForbidden binding.threadId
      binding.providerId route.providerId)
  | none =>
    match stringField "modelProvider" params with
    | some provider =>
      if staysWithProvider provider binding.providerId then .ok none
      else .error (.providerSwitchForbidden binding.threadId
        binding.providerId provider)
    | none => .ok none

/-- The provider a request selects, and the name the child knows it by. -/
def selectedProvider (allowLegacyOfficialDiscovery : Bool) :
    Except BridgeError (String × String) :=
  let modelId := (stringField "model" params).getD ""
  match state.modelProviderMap.resolve modelId,
      nonBlank (stringField "modelProvider" params) with
  | some route, _ => .ok (route.providerId, route.childProviderId)
  | none, some providerId =>
    .ok (providerId,
      if isOfficialName providerId then vellumOfficialProviderName
      else providerId)
  | none, none =>
    if allowLegacyOfficialDiscovery && isBlank modelId then
      .ok ("openai-official", vellumOfficialProviderName)
    else .error .missingRoutingAuthority

def pendingFromProvider (expectedThreadId : Option String)
    (allowLegacyOfficialDiscovery : Bool) :
    Except BridgeError (PendingBinding × String) :=
  match state.selectedProvider params allowLegacyOfficialDiscovery with
  | .error error => .error error
  | .ok (providerId, childProviderId) =>
    match state.providers.classify providerId with
    | none => .error (.untrustedProvider providerId)
    | some providerClass =>
      .ok ({ plane := match providerClass with
              | .official => .officialCodex
              | .trustedThirdParty => .enhancedCodex
             providerId
             modelId := (stringField "model" params).getD ""
             expectedThreadId }, childProviderId)

/-- Where a request goes: the plane, the binding its response makes, and the
provider to name to the child. -/
structure Route where
  plane : ExecutionPlane
  pending : Option PendingBinding := none
  childProviderId : Option String := none
deriving DecidableEq

def routeStart : Except BridgeError Route :=
  match state.pendingFromProvider params none false with
  | .error error => .error error
  | .ok (pending, childProviderId) =>
    .ok ⟨pending.plane, some pending, some childProviderId⟩

def routeResume : Except BridgeError Route :=
  match requiredString params "threadId" with
  | .error error => .error error
  | .ok threadId =>
    match state.store.get threadId with
    | some binding =>
      let binding := state.effectiveBinding binding
      match state.ensureProviderDoesNotSwitch params binding with
      | .error error => .error error
      | .ok childProviderId => .ok ⟨binding.plane, none, childProviderId⟩
    | none =>
      match state.pendingFromProvider params (some threadId) true with
      | .error error => .error error
      | .ok (pending, childProviderId) =>
        .ok ⟨pending.plane, some pending, some childProviderId⟩

def routeFork : Except BridgeError Route :=
  match requiredString params "threadId" with
  | .error error => .error error
  | .ok threadId =>
    match state.requireBinding threadId with
    | .error error => .error error
    | .ok binding =>
      match state.ensureProviderDoesNotSwitch params binding with
      | .error error => .error error
      | .ok childProviderId =>
        let pending :=
          { plane := binding.plane
            providerId := binding.providerId
            modelId := (stringField "model" params).getD binding.modelId
            expectedThreadId := none }
        .ok ⟨binding.plane, some pending, childProviderId⟩

/-- The requests that are not about a thread. -/
def isGlobal (method : String) : Bool :=
  ["initialize", "model/list", "account/read", "config/read"].contains method

def routeMethod (method : String) (params : Json) : Except BridgeError Route :=
  if method = "thread/start" then state.routeStart params
  else if method = "thread/resume" then state.routeResume params
  else if method = "thread/fork" then state.routeFork params
  else if isGlobal method || isOfficialThreadMetadata method then
    .ok { plane := .officialCodex }
  else
    match findThreadId params with
    | some threadId =>
      match state.requireBinding threadId with
      | .error error => .error error
      | .ok binding => .ok { plane := binding.plane }
    | none =>
      if requiresThread method then
        .error (.protocol "thread owner is required")
      else .ok { plane := .officialCodex }

/-! Threads that a child spawned. -/

def childProviderForBinding (binding : ThreadRuntimeBinding) : String :=
  match state.modelProviderMap.resolve binding.modelId with
  | some route => route.childProviderId
  | none =>
    match binding.plane with
    | .officialCodex => vellumOfficialProviderName
    | .enhancedCodex => vellumProviderName

/-- The binding a child takes from its parent's. -/
def childBinding (parent : ThreadRuntimeBinding) (childThreadId : String)
    (createdAt : Int) : ThreadRuntimeBinding :=
  .new childThreadId parent.plane parent.runtimeDigest parent.providerId
    parent.modelId childThreadId createdAt

def inheritChildBinding (store : ThreadRuntimeBindingStore)
    (parent : ThreadRuntimeBinding) (childThreadId : String)
    (createdAt : Int) : Except BridgeError ThreadRuntimeBindingStore :=
  match store.insertImmutable (childBinding parent childThreadId createdAt) with
  | .ok store => .ok store
  | .error error => .error (.binding error)

/-- The children bound before one fails stay bound. -/
def inheritChildBindings (parent : ThreadRuntimeBinding)
    (createdAt : String → Int) :
    List String → ThreadRuntimeBindingStore →
      ThreadRuntimeBindingStore × Except BridgeError Unit
  | [], store => (store, .ok ())
  | child :: rest, store =>
    match inheritChildBinding store parent child (createdAt child) with
    | .ok store => inheritChildBindings parent createdAt rest store
    | .error error => (store, .error error)

/-- `thread/started`; `none` when the thread has no parent. -/
def startedChild (plane : ExecutionPlane) (params : Json) :
    Except BridgeError (Option (ThreadRuntimeBinding × List String)) :=
  match params.get "thread" with
  | none => .error (.protocol "thread/started notification has no thread")
  | some thread =>
    match nonBlank (stringField "parentThreadId" thread) with
    | none => .ok none
    | some parentThreadId => do
        let childThreadId ← requiredString thread "id"
        let actualProvider ← requiredString thread "modelProvider"
        let parent ← state.requireBinding parentThreadId
        if parent.plane ≠ plane then
          .error (.protocol ("child thread " ++ childThreadId ++
            " was announced by the wrong runtime"))
        else if actualProvider ≠ state.childProviderForBinding parent then
          .error (.providerSwitchForbidden childThreadId
            (state.childProviderForBinding parent) actualProvider)
        else .ok (some (parent, [childThreadId]))

def receiverThreadId (value : Json) : Except BridgeError String :=
  match nonBlank value.asStr with
  | some threadId => .ok threadId
  | none => .error (.protocol
      "spawnAgent receiverThreadIds contains a non-string or empty id")

/-- The threads a lifecycle item of a parent thread names. -/
def spawnedThreadIds (parentThreadId : String) (item : Json) :
    Except BridgeError (List String) :=
  if stringField "type" item = some "collabAgentToolCall" ∧
      stringField "tool" item = some "spawnAgent" then
    match stringField "senderThreadId" item with
    | none => .error (.protocol
        "spawnAgent lifecycle item has no senderThreadId")
    | some sender =>
      if sender ≠ parentThreadId then
        .error (.protocol ("spawnAgent sender thread " ++ sender ++
          " does not match notification thread " ++ parentThreadId))
      else
        match (item.get "receiverThreadIds").bind Json.asArr with
        | none => .error (.protocol
            "spawnAgent lifecycle item has no receiverThreadIds")
        | some receivers => receivers.mapM receiverThreadId
  else if stringField "type" item = some "subAgentActivity" then
    match nonBlank (stringField "agentThreadId" item) with
    | some threadId => .ok [threadId]
    | none => .error (.protocol
        "subAgentActivity lifecycle item has no agentThreadId")
  else .ok []

/-- A child runs under its parent's route, whatever model the item names. -/
def checkRequestedModel (parentThreadId : String)
    (parent : ThreadRuntimeBinding) (requestedModel : String) :
    Except BridgeError Unit :=
  match state.modelProviderMap.resolve requestedModel with
  | some route =>
    if staysWithProvider route.providerId parent.providerId then .ok ()
    else .error (.providerSwitchForbidden parentThreadId parent.providerId
      route.providerId)
  | none =>
    if requestedModel ≠ parent.modelId then .error .missingRoutingAuthority
    else .ok ()

def spawnedChildren (plane : ExecutionPlane) (params : Json) :
    Except BridgeError (Option (ThreadRuntimeBinding × List String)) :=
  match findThreadId params, params.get "item" with
  | some parentThreadId, some item => do
      let children ← spawnedThreadIds parentThreadId item
      if children.isEmpty then .ok none
      else
        let parent ← state.requireBinding parentThreadId
        if parent.plane ≠ plane then
          .error (.protocol ("spawn lifecycle for thread " ++ parentThreadId ++
            " came from the wrong runtime"))
        else
          let requested := (nonBlank (stringField "model" item)).getD
            parent.modelId
          state.checkRequestedModel parentThreadId parent requested
          .ok (some (parent, children))
  | _, _ => .ok none

/-- The parent's binding and the children a notification announces. -/
def announcedChildren (plane : ExecutionPlane) (notification : Json) :
    Except BridgeError (Option (ThreadRuntimeBinding × List String)) :=
  match notification.get "params" with
  | none => .ok none
  | some params =>
    if stringField "method" notification = some "thread/started" then
      state.startedChild plane params
    else state.spawnedChildren plane params

def bindSpawnedAgentThreads (createdAt : String → Int) (plane : ExecutionPlane)
    (notification : Json) : BridgeState × Except BridgeError Unit :=
  match state.announcedChildren plane notification with
  | .error error => (state, .error error)
  | .ok none => (state, .ok ())
  | .ok (some (parent, children)) =>
    let (store, result) :=
      inheritChildBindings parent createdAt children state.store
    ({ state with store }, result)

end BridgeState

end Vellum.Enhanced
