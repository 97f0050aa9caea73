/-
The JSON-RPC messages the app-server bridge reads, rewrites and answers with
(`enhanced_runtime/app_server_bridge.rs`, `contracts.rs`,
`backend_relay.rs`).
-/
import Vellum.Enhanced.ThreadBinding

namespace Vellum.Enhanced

/-- The failures a line can end with. -/
inductive BridgeError where
  | protocol (message : String)
  | missingRoutingAuthority
  | unboundThread (threadId : String)
  | runtimeUnavailable (plane : ExecutionPlane)
  | providerSwitchForbidden (threadId bound requested : String)
  | untrustedProvider (providerId : String)
  | binding (error : BindingStoreError)
  | json (message : String)
deriving DecidableEq

def ExecutionPlane.debugName : ExecutionPlane → String
  | .officialCodex => "OfficialCodex"
  | .enhancedCodex => "EnhancedCodex"

def BindingStoreError.text : BindingStoreError → String
  | .unsupportedVersion version =>
    "unsupported thread runtime binding version " ++ toString version
  | .immutable threadId => "thread " ++ threadId ++
      " runtime binding is immutable; create a new thread to change execution " ++
      "plane"

def BridgeError.text : BridgeError → String
  | .protocol message => "app-server protocol error: " ++ message
  | .missingRoutingAuthority => "app-server protocol error: thread/start " ++
      "requires a mapped model or trusted modelProvider"
  | .unboundThread threadId =>
    "thread " ++ threadId ++ " has no immutable runtime binding"
  | .runtimeUnavailable plane => plane.debugName ++ " Codex is not running; " ++
      "this request fails closed rather than falling back to the other runtime"
  | .providerSwitchForbidden threadId bound requested =>
    "thread " ++ threadId ++ " is bound to provider " ++ bound ++
      "; switching to " ++ requested ++ " requires a new thread"
  | .untrustedProvider providerId =>
    "provider " ++ providerId ++ " is not in the trusted provider set"
  | .binding error => error.text
  | .json message => message

def startsWith (text front : String) : Bool :=
  front.toList.isPrefixOf text.toList

/-! Methods (`contracts.rs`). -/

variable (method : String) (value : Json)

def isRemoteControl : Bool :=
  startsWith method "remoteControl/"

def isOfficialThreadMetadata : Bool :=
  startsWith method "thread/attachment/" ||
    startsWith method "thread/attachmentOwner/"

/-- Methods that never reach a runtime without a thread owner. -/
def requiresThread : Bool :=
  startsWith method "turn/" ||
    ["thread/read", "thread/resume", "thread/fork", "thread/unsubscribe",
      "thread/rollback", "thread/compact/start"].contains method

/-! Fields of a message. -/

/-- A field that is a string. -/
def stringField (name : String) (value : Json) : Option String :=
  (value.get name).bind Json.asStr

/-- `value["method"].as_str().unwrap_or_default()`. -/
def methodOf : String := (stringField "method" value).getD ""

/-- A missing parameter object reads as `null`. -/
def paramsOf : Json := (value.get "params").getD .null

/-- A `threadId` of any type hides the `conversationId`. -/
def findThreadId (params : Json) : Option String :=
  ((params.get "threadId").orElse fun _ => params.get "conversationId").bind
    Json.asStr

def notificationOwnerThreadId : Option String :=
  (value.get "params").bind fun params =>
    (findThreadId params).orElse fun _ =>
      if method = "thread/started" ∧
          ((params.pointer ["thread", "parentThreadId"]).bind
            Json.asStr).isSome then
        (params.pointer ["thread", "id"]).bind Json.asStr
      else none

def nonBlank (text : Option String) : Option String :=
  text.filter fun text => !isBlank text

def requiredString (key : String) : Except BridgeError String :=
  match nonBlank (stringField key value) with
  | some text => .ok text
  | none => .error (.protocol ("missing required " ++ key))

def responseThreadId : Except BridgeError String :=
  match ((value.pointer ["result", "thread", "id"]).orElse fun _ =>
      value.pointer ["result", "threadId"]).bind Json.asStr with
  | some threadId => .ok threadId
  | none => .error (.protocol "thread response did not contain a thread id")

/-- `value[name] = field` on an object; a missing object is created. -/
def setField (name : String) (field : Json) : Json → Json
  | .obj fields => .obj (Json.insertField name field fields)
  | .null => .obj [(name, field)]
  | other => other

/-- `value["params"]["modelProvider"] = provider`. -/
def setModelProvider (provider : String) (value : Json) : Json :=
  setField "params" (setField "modelProvider" (.str provider) (paramsOf value))
    value

def jsonRpcError (id : Json) (code : Int) (message : String) : Json :=
  .obj [("id", id), ("error", .obj
    [("code", .num (.int code)), ("message", .str message)])]

/-- The answer to a line that was refused; the id is the one it had. -/
def clientError (line : Except String Json) (error : BridgeError) : Json :=
  let id := match line with
    | .ok value => (value.get "id").getD .null
    | .error _ => .null
  jsonRpcError id (-32070) error.text

/-! The backend origin in an `account/read` response. -/

def productionBackendOrigin : String := "https://chatgpt.com"

def routeWorkspaceToRelay (relayOrigin : String) (result : Json) : Json :=
  result.modify "workspaceRouting" fun routing =>
    routing.modify "backendOrigin" fun origin =>
      if origin.asStr = some productionBackendOrigin then .str relayOrigin
      else origin

/-- `relayOrigin` is the live relay's origin, where the bridge may use it. -/
def routeDesktopBackendToRelay (relayOrigin : Option String)
    (response : Json) : Json :=
  match relayOrigin with
  | some origin => response.modify "result" (routeWorkspaceToRelay origin)
  | none => response

/-! Feature settings that the Enhanced core takes as booleans only. -/

def enhancedBooleanFeatures : List String := ["async_compaction"]

/-- A map of settings collapses to its `enabled`. -/
def collapseToEnabled (setting : Json) : Json :=
  match setting with
  | .obj _ => .bool ((setting.get "enabled").bind Json.asBool = some true)
  | other => other

def normalizeBooleanFeature (feature : String)
    (config : List (String × Json)) : List (String × Json) :=
  let key := "features." ++ feature
  let directBoolean :=
    ((Json.obj config).get key).any fun value => value.asBool.isSome
  let enabled := ((Json.obj config).get (key ++ ".enabled")).bind Json.asBool
  let kept := config.filter fun field => !startsWith field.1 (key ++ ".")
  let collapsed := ((Json.obj kept).modify key collapseToEnabled).modify
    "features" fun features => features.modify feature collapseToEnabled
  match collapsed, directBoolean, enabled with
  | .obj fields, false, some enabled =>
    Json.insertField key (.bool enabled) fields
  | .obj fields, _, _ => fields
  | _, _, _ => kept

def normalizeEnhancedBooleanFeatures (config : List (String × Json)) :
    List (String × Json) :=
  enhancedBooleanFeatures.foldl
    (fun config feature => normalizeBooleanFeature feature config) config

def withoutThreadContext (guardian : Json) : Json :=
  match guardian with
  | .obj fields => .obj (Json.removeField "thread_context" fields)
  | other => other

def normalizeGuardianConfig (config : Json) : Json :=
  match config with
  | .obj fields =>
    let kept := Json.removeField "features.guardianv2.thread_context"
      (normalizeEnhancedBooleanFeatures fields)
    ((Json.obj kept).modify "features.guardianv2"
      withoutThreadContext).modify "features" fun features =>
        features.modify "guardianv2" withoutThreadContext
  | other => other

def normalizeEnhancedGuardianConfig (plane : ExecutionPlane)
    (request : Json) : Json :=
  if plane = .enhancedCodex ∧
      (stringField "method" request).any
        (["thread/start", "thread/resume", "thread/fork"].contains ·) then
    request.modify "params" fun params =>
      params.modify "config" normalizeGuardianConfig
  else request

end Vellum.Enhanced
