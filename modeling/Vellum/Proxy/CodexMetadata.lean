/-
The conversation a request belongs to.  A Codex client names its session and
thread in `client_metadata` (`vellum-proxy-runtime/src/codex_metadata.rs`);
other clients are recognized by a field of the request, which is hashed
(`grok_session.rs`).
-/
import Vellum.Library.JsonRecord
import Vellum.Proxy.ToolContext

namespace Vellum.Proxy

def maxCodexTurnMetadataBytes : Nat := 16 * 1024

def maxCodexIdBytes : Nat := 256

/-- Why the metadata of a request is refused.  The parser's own message is
left out. -/
inductive CodexMetadataError where
  | emptyId (field : String)
  | invalidId (field : String)
  | idTooLong (field : String) (len : Nat)
  | malformedTurnMetadata
  | metadataTooLarge

structure CodexOpaqueId where
  text : String
deriving DecidableEq

/-- `char::is_control`. -/
def isControl (c : Char) : Bool :=
  c.toNat < 0x20 || (0x7f ≤ c.toNat && c.toNat < 0xa0)

/-- `str::trim`. -/
def trim (text : String) : String := String.ofList (Text.trim text.toList)

def parseCodexOpaqueId (field value : String) :
    Except CodexMetadataError CodexOpaqueId :=
  let trimmed := trim value
  if trimmed = "" then .error (.emptyId field)
  else if maxCodexIdBytes < trimmed.utf8ByteSize then
    .error (.idTooLong field trimmed.utf8ByteSize)
  else if trimmed.toList.any isControl then .error (.invalidId field)
  else .ok ⟨trimmed⟩

/-- How far the identity of a turn can be relied on: `None`, `Partial`,
`Structured`, `Exact` and `Conflict`. -/
inductive CodexIdentityTrust where
  | unknown
  | fragment
  | structured
  | complete
  | conflict
deriving DecidableEq

/-- The identity of a turn. -/
structure CodexTurnIdentity where
  installationId : Option CodexOpaqueId := none
  sessionId : Option CodexOpaqueId := none
  threadId : Option CodexOpaqueId := none
  agentName : Option String := none
  turnId : Option CodexOpaqueId := none
  rootTurnId : Option CodexOpaqueId := none
  parentThreadId : Option CodexOpaqueId := none
  parentTurnId : Option CodexOpaqueId := none
  forkedFromThreadId : Option CodexOpaqueId := none
  windowId : Option CodexOpaqueId := none
  contextWindowId : Option CodexOpaqueId := none
  requestKind : Option String := none
  subagentKind : Option String := none
  trust : CodexIdentityTrust := .unknown

/-- The metadata as a client sends it. -/
structure CodexTurnMetadataWire where
  installationId : Option String
  sessionId : Option String
  threadId : Option String
  agentName : Option String
  turnId : Option String
  rootTurnId : Option String
  parentThreadId : Option String
  parentTurnId : Option String
  forkedFromThreadId : Option String
  windowId : Option String
  contextWindowId : Option String
  requestKind : Option String
  subagentKind : Option String

def CodexTurnMetadataWire.fromJson (value : Json) :
    Option CodexTurnMetadataWire :=
  if value.isObject then do
    return {
      installationId := ← value.optionalField Json.asStr "installation_id"
      sessionId := ← value.optionalField Json.asStr "session_id"
      threadId := ← value.optionalField Json.asStr "thread_id"
      agentName := ← value.optionalField Json.asStr "agent_name"
      turnId := ← value.optionalField Json.asStr "turn_id"
      rootTurnId := ← value.optionalField Json.asStr "root_turn_id"
      parentThreadId := ← value.optionalField Json.asStr "parent_thread_id"
      parentTurnId := ← value.optionalField Json.asStr "parent_turn_id"
      forkedFromThreadId :=
        ← value.optionalField Json.asStr "forked_from_thread_id"
      windowId := ← value.optionalField Json.asStr "window_id"
      contextWindowId := ← value.optionalField Json.asStr "context_window_id"
      requestKind := ← value.optionalField Json.asStr "request_kind"
      subagentKind := ← value.optionalField Json.asStr "subagent_kind" }
  else none

/-- A field of the wire format: a blank one is left out, any other must be an
identifier. -/
def wireId (field : String) (value : Option String) :
    Except CodexMetadataError (Option CodexOpaqueId) :=
  match value.filter fun text => !isBlank text with
  | some text => (parseCodexOpaqueId field text).map some
  | none => .ok none

def normalizeWireMetadata (wire : CodexTurnMetadataWire) :
    Except CodexMetadataError CodexTurnIdentity := do
  let installationId ← wireId "installation_id" wire.installationId
  let sessionId ← wireId "session_id" wire.sessionId
  let threadId ← wireId "thread_id" wire.threadId
  let turnId ← wireId "turn_id" wire.turnId
  let rootTurnId ← wireId "root_turn_id" wire.rootTurnId
  let parentThreadId ← wireId "parent_thread_id" wire.parentThreadId
  let parentTurnId ← wireId "parent_turn_id" wire.parentTurnId
  let forkedFromThreadId ←
    wireId "forked_from_thread_id" wire.forkedFromThreadId
  let windowId ← wireId "window_id" wire.windowId
  let contextWindowId ← wireId "context_window_id" wire.contextWindowId
  let trust : CodexIdentityTrust :=
    if sessionId.isSome && threadId.isSome then
      if parentThreadId.isSome then .complete else .structured
    else if threadId.isSome || parentThreadId.isSome then .fragment
    else .unknown
  return {
    installationId, sessionId, threadId
    agentName := wire.agentName.map trim
    turnId, rootTurnId, parentThreadId, parentTurnId, forkedFromThreadId
    windowId, contextWindowId
    requestKind := wire.requestKind.map trim
    subagentKind := wire.subagentKind.map trim
    trust }

/-- The structured metadata of a request body, a JSON text or an object. -/
def parseCanonicalClientMetadata (crates : Crates) (body : Json) :
    Except CodexMetadataError (Option CodexTurnIdentity) :=
  match ((body.get "client_metadata").filter Json.isObject).bind
      (Json.get "x-codex-turn-metadata") with
  | none => .ok none
  | some wire =>
    match (match wire with
      | .str text => some text
      | .obj _ => some (crates.toStr wire)
      | _ => none) with
    | none => .error .malformedTurnMetadata
    | some text =>
      if maxCodexTurnMetadataBytes < text.utf8ByteSize then
        .error .metadataTooLarge
      else
        match (crates.fromStr text).bind CodexTurnMetadataWire.fromJson with
        | none => .error .malformedTurnMetadata
        | some wire => (normalizeWireMetadata wire).map some

/-- The session and the thread a request body names in flat fields. -/
structure CodexCompatibilityProjection where
  sessionId : Option CodexOpaqueId
  threadId : Option CodexOpaqueId

/-- A flat field; one that is no identifier is passed over. -/
def flatId (clientMetadata : Option Json) (field : String) :
    Option CodexOpaqueId :=
  ((clientMetadata.bind (Json.get field)).bind Json.asStr).bind fun text =>
    (parseCodexOpaqueId field text).toOption

/-- `parse_compatibility_projection` without headers. -/
def parseCompatibilityProjection (body : Json) :
    CodexCompatibilityProjection :=
  let clientMetadata := (body.get "client_metadata").filter Json.isObject
  ⟨flatId clientMetadata "session_id", flatId clientMetadata "thread_id"⟩

/-- The delimiter of the key and the escape marker are escaped. -/
def encodeCodexConversationKeyComponent (value : String) : String :=
  String.ofList (value.toList.flatMap fun c =>
    if c = '%' then "%25".toList else if c = ':' then "%3A".toList else [c])

def codexConversationKey (identity : CodexTurnIdentity) : Option String :=
  if identity.trust = .conflict then none
  else
    match identity.sessionId, identity.threadId with
    | some sessionId, some threadId =>
      some ("codex:" ++ encodeCodexConversationKeyComponent sessionId.text ++
        ":" ++ encodeCodexConversationKeyComponent threadId.text)
    | _, _ => none

/-- `format!("{:x}", Sha256::digest(..))`. -/
def sha256Hex (crates : Crates) (text : String) : String :=
  String.ofList ((crates.sha256 text).flatMap hexByte)

def conversationKeyFromRaw (crates : Crates) (raw : Option String) :
    Option String :=
  (raw.filter fun value => !isBlank value).map fun value =>
    sha256Hex crates (trim value)

def conversationKeyFromRequest (crates : Crates) (request : Json) :
    Option String :=
  conversationKeyFromRaw crates
    (((request.get "conversation_id").bind Json.asStr).or
      (((request.get "thread_id").bind Json.asStr).or
      (((request.get "prompt_cache_key").bind Json.asStr).or
      (((request.pointer ["metadata", "thread_id"]).bind Json.asStr).or
      (((request.pointer ["metadata", "conversation_id"]).bind Json.asStr).or
      (((request.pointer ["metadata", "session_id"]).bind Json.asStr).or
      ((request.get "session").bind Json.asStr)))))))

end Vellum.Proxy
