/-
The translation of a Codex request for an upstream provider
(`vellum-proxy-runtime/src/profile_adapter.rs`,
`prepare_upstream_request_details`).  The request is scrubbed, normalized for
the provider, told which tools it has and, on the Chat wire, projected to
messages.
-/
import Vellum.Proxy.ChatProjection

namespace Vellum.Proxy

inductive RuntimeReasoningEffortTransport where
  | responsesObject
  | chatField
  | chatObject
  | providerSpecific
  | none

/-- The fields of a route that the translation reads. -/
structure ProfileAdapterRoute where
  upstreamModel : String
  reasoning : Bool
  vision : Bool
  providerKind : RuntimeProviderKind
  wire : RuntimeWireFormat
  baseUrl : String
  chatCapabilities : RuntimeChatCapabilities := {}
  reasoningEffortTransport : RuntimeReasoningEffortTransport := .none

/-- The parts of an address. -/
structure Url where
  scheme : String
  username : String
  password : Option String
  host : Option String
  port : Option Nat
  path : String
  query : Option String
  fragment : Option String

/-- What the adapter calls of the image and address crates besides: a base64
image as a smaller base64 JPEG of a long edge and a quality, and addresses. -/
structure AdapterCrates extends Crates where
  recompress : String → Nat → Nat → Option String
  parseUrl : String → Option Url
  printUrl : Url → String

/-- The two switches of the evaluation, as the environment has them. -/
structure EvalGuidance where
  parallel : Option String := none
  actionBias : Option String := none

structure HarnessTranscriptDiagnostics where
  messageCount : Nat
  roleSequence : String
  emptyMessages : Nat
  toolPairs : Nat
  orphanToolResults : Nat
  duplicateToolIds : Nat
  firstRole : Option String
  lastRole : Option String
  replayPrefixItems : Nat
  currentSuffixItems : Nat
  userMessages : Nat
  assistantMessages : Nat
  toolMessages : Nat
  systemMessages : Nat
  toolCalls : Nat
  summaries : Nat
  overlapSkips : Nat
  neutralBridges : Nat
  checkpointResumes : Nat
  compactionRepairs : Nat
  userTurnHashes : List String
deriving DecidableEq

structure PreparedUpstreamRequest where
  body : Json
  chatDiagnostics : Option HarnessTranscriptDiagnostics := none
  chatProvenance : List ChatMessageProvenance := []
deriving DecidableEq

/-! The request on every wire. -/

/-- Take a field of an object away. -/
def dropField (name : String) : Json → Json
  | .obj fields => .obj (Json.removeField name fields)
  | other => other

/-- Give an object a field; other values stay as they are. -/
def putField (name : String) (value : Json) : Json → Json
  | .obj fields => .obj (Json.insertField name value fields)
  | other => other

/-- `reasoning.effort` of a request. -/
def requestEffort (body : Json) : Option String :=
  ((body.get "reasoning").bind (Json.get "effort")).bind Json.asStr

/-- A disabled summary is left out of an official request. -/
def omitDisabledOfficialReasoningSummary (body : Json) : Json :=
  match body.get "reasoning" with
  | some (.obj reasoning) =>
    if ((Json.obj reasoning).get "summary").bind Json.asStr =
        some "none" then
      let rest := Json.removeField "summary" reasoning
      if rest.isEmpty then dropField "reasoning" body
      else putField "reasoning" (.obj rest) body
    else body
  | _ => body

def prepareOpenaiOfficialNative (original : Json) (upstreamModel : String) :
    Json :=
  omitDisabledOfficialReasoningSummary
    (putField "model" (.str upstreamModel) original)

/-- `text.replacen(needle, replacement, 1)`. -/
def replaceOnce (needle replacement text : String) : String :=
  match Text.find needle.toList text.toList with
  | some position =>
    String.ofList (text.toList.take position ++ replacement.toList ++
      text.toList.drop (position + needle.length))
  | none => text

/-- Whether a switch has one of the values. -/
def switchIs (values : List String) (switch : Option String) : Bool :=
  switch.any fun value =>
    String.ofList ((Text.trim value.toList).map Char.toLower) ∈ values

variable (crates : Crates) (profile : HarnessProfile)

/-- The instructions that know the tools of the request. -/
def toolAwareInstructions (environment : ExecutionEnvironment)
    (guidance : EvalGuidance) (tools : List ToolSnapshot) : String :=
  instructionsWithOptions profile environment tools
    (switchIs ["1", "on", "true"] guidance.parallel)
    (!switchIs ["0", "off", "false"] guidance.actionBias)

/-- The instructions a request leaves with: the catalog's baseline is
replaced, what the user wrote stays. -/
def updatedInstructions (toolAware : String) (catalogBaseline : Option String)
    (existing : Option String) : String :=
  match existing, catalogBaseline with
  | none, _ => toolAware
  | some existing, baseline =>
    if containsBlock toolAware.toList existing.toList then existing
    else
      match baseline.filter fun baseline =>
          containsBlock baseline.toList existing.toList with
      | some baseline => replaceOnce baseline toolAware existing
      | none => existing ++ "\n\n" ++ toolAware

def applyRequestTimeInstructions (tools : List ToolSnapshot)
    (environment : ExecutionEnvironment) (catalogBaseline : Option String)
    (guidance : EvalGuidance) (body : Json) : Json :=
  let toolAware := toolAwareInstructions profile environment guidance tools
  if instructions profile environment = toolAware then body
  else
    putField "instructions"
      (.str (updatedInstructions toolAware catalogBaseline
        ((body.get "instructions").bind Json.asStr))) body

/-- Put fields into the object under a key without touching its others. -/
def mergeObjectField (key : String) (patch : List (String × Json))
    (target : Json) : Json :=
  match target.get key with
  | some (.obj existing) =>
    putField key (.obj (patch.foldl
      (fun merged field => Json.insertField field.1 field.2 merged)
      existing)) target
  | _ => putField key (.obj patch) target

/-- The effort stands in one place only. -/
def stripRelocatedEffortField (body : Json) : Json :=
  let body := dropField "reasoning_effort" body
  match body.get "reasoning" with
  | some (.obj reasoning) =>
    let rest := Json.removeField "effort" reasoning
    if rest.isEmpty then dropField "reasoning" body
    else putField "reasoning" (.obj rest) body
  | _ => body

def applyReasoningEffortTransport (effort : String)
    (transport : RuntimeReasoningEffortTransport) (body : Json) : Json :=
  match transport with
  | .responsesObject | .chatObject =>
    putField "reasoning" (.obj [("effort", .str effort)]) body
  | .chatField => putField "reasoning_effort" (.str effort) body
  | .providerSpecific =>
    stripRelocatedEffortField
      (mergeObjectField "chat_template_kwargs"
        [("reasoning_effort", .str effort)] body)
  | .none => body

/-! The Responses wire. -/

/-- A tool choice of the Responses wire. -/
def normalizeGrokToolChoice (choice : Json) : Json :=
  match choice with
  | .obj _ =>
    let named (name : Json) : Json :=
      .obj [("type", .str "function"), ("name", name)]
    match toolKind choice with
    | some kind =>
      if kind = "namespace" then
        let namespaceName := (((choice.get "namespace").or
          (choice.get "name")).bind Json.asStr).getD "namespace"
        let name := (((choice.get "function").or
          (choice.get "tool")).bind Json.asStr).getD "tool"
        named (.str (namespaceName ++ "__" ++ name))
      else if kind = "custom" then
        named ((choice.get "name").getD (.str "custom_tool"))
      else if kind = "tool_search" then named (.str "tool_search")
      else if kind ≠ "function" then .str "auto"
      else choice
    | none => choice
  | _ => choice

/-- The request with its input in the public form, and the tools that the input
declares. -/
def publicInput (fields : List (String × Json)) :
    Except String (List (String × Json) × List Json) :=
  match (Json.obj fields).get "input" with
  | some (.arr items) =>
    (normalizeInputItems crates profile
      (items.map fun item => (item, ()))).map fun (items, embedded) =>
        (Json.insertField "input" (.arr (items.map Prod.fst)) fields, embedded)
  | _ => .ok (fields, [])

/-- The request with its input normalized and without its tools, and the
functions that its tools stand for. -/
def normalizeResponsesInputAndTools (fields : List (String × Json)) :
    Except String (List (String × Json) × List Json) := do
  let (fields, embedded) ← publicInput crates profile fields
  let tools ← mergedTools crates .responses profile
    (requestTools (.obj fields)) embedded
  return (Json.removeField "tools" fields,
    tools ++ delegationTools .responses profile)

/-- The local `web_search` wrapper is only offered where it can be run. -/
def withoutIdleSearch (webSearchEnabled : Bool) (tools : List Json) :
    List Json :=
  if webSearchEnabled then tools
  else tools.filter fun tool => functionToolName tool ≠ some "web_search"

/-- Give a request its tools; without any, what speaks of tools goes. -/
def withFunctionTools (tools : List Json) (fields : List (String × Json)) :
    List (String × Json) :=
  if tools.isEmpty then
    Json.removeField "parallel_tool_calls"
      (Json.removeField "tool_choice" fields)
  else
    let equipped := Json.insertField "tools" (.arr tools) fields
    match (Json.obj equipped).get "tool_choice" with
    | some choice =>
      Json.insertField "tool_choice" (normalizeGrokToolChoice choice) equipped
    | none => equipped

def grokRequestFields : List String :=
  ["model", "instructions", "input", "tools", "tool_choice", "stream",
    "temperature", "top_p", "max_output_tokens", "reasoning", "text",
    "metadata", "parallel_tool_calls", "include", "prompt_cache_key", "store",
    "user"]

/-- An effort of `none` is left out. -/
def omitNoneEffort (fields : List (String × Json)) : List (String × Json) :=
  match (Json.obj fields).get "reasoning" with
  | some (.obj reasoning) =>
    let rest :=
      if ((Json.obj reasoning).get "effort").bind Json.asStr =
          some "none" then Json.removeField "effort" reasoning
      else reasoning
    if rest.isEmpty then Json.removeField "reasoning" fields
    else Json.insertField "reasoning" (.obj rest) fields
  | _ => fields

def normalizeGrokResponsesRequest (webSearchEnabled : Bool) (body : Json) :
    Except String Json :=
  match body with
  | .obj fields => do
      let known := fields.filter fun field => field.1 ∈ grokRequestFields
      let (fields, tools) ← normalizeResponsesInputAndTools crates profile
        (omitNoneEffort known)
      return .obj (withFunctionTools (withoutIdleSearch webSearchEnabled tools)
        fields)
  | _ => .error "Grok request body must be a JSON object"

/-- Move the system and developer items to the instructions. -/
def foldCompatibleResponsesInstructions (fields : List (String × Json)) :
    List (String × Json) :=
  match (Json.obj fields).get "input" with
  | some (.arr items) =>
    let kept := Json.insertField "input"
      (.arr (items.filter (!isInstructionItem ·))) fields
    let folded := ((items.filter isInstructionItem).map
      (instructionText crates)).filter fun text => !isBlank text
    if folded.isEmpty then kept
    else
      let own := (((Json.obj kept).get "instructions").bind
        Json.asStr).filter fun text => !isBlank text
      Json.insertField "instructions"
        (.str ("\n\n".intercalate (own.toList ++ folded))) kept
  | _ => fields

def lowerFunctionOutputs (fields : List (String × Json)) :
    List (String × Json) :=
  match (Json.obj fields).get "input" with
  | some (.arr items) =>
    Json.insertField "input" (.arr (items.map (lowerFunctionOutput crates)))
      fields
  | _ => fields

def normalizeCompatibleResponsesRequest (webSearchEnabled : Bool)
    (body : Json) : Except String Json :=
  match body with
  | .obj fields => do
      let (fields, tools) ← normalizeResponsesInputAndTools crates profile
        (Json.removeField "client_metadata"
          (Json.removeField "previous_response_id" fields))
      return .obj (foldCompatibleResponsesInstructions crates
        (withFunctionTools (withoutIdleSearch webSearchEnabled tools)
          (lowerFunctionOutputs crates fields)))
  | _ => .error "OpenAI-compatible Responses body must be a JSON object"

/-! The Chat wire. -/

def hasAutoOrMissingToolChoice (body : Json) : Bool :=
  match body.get "tool_choice" with
  | none | some .null => true
  | some (.str choice) => lowerAscii choice = "auto".toList
  | some choice => (toolKind choice).any fun kind =>
    lowerAscii kind = "auto".toList

def normalizeChatToolChoice (choice : Json) : Json :=
  match choice with
  | .obj _ =>
    match (toolText choice "name").or
        ((choice.pointer ["function", "name"]).bind Json.asStr) with
    | some name =>
      .obj [("type", .str "function"),
        ("function", .obj [("name", .str name)])]
    | none => .str "auto"
  | _ => choice

/-- What a character is in lower case, as far as a search for ASCII text can
see it: the Kelvin sign and the dotted capital I have ASCII letters there. -/
def lowerForSearch (c : Char) : List Char :=
  if c = '\u212a' then ['k']
  else if c = '\u0130' then ['i', '\u0307']
  else [c.toLower]

def actionWords : List String :=
  ["implement", "create", "edit", "modify", "fix", "run", "test", "inspect",
    "read", "investigate", "build", "commit", "apply", "delete", "remove",
    "update", "clone"]

def actionSigns : List String :=
  ["實作", "实现", "建立", "修改", "修復", "修复", "執行", "执行", "測試", "测试",
    "檢查", "检查", "調查", "调查", "讀取", "读取", "建置", "編譯", "编译", "提交",
    "刪除", "删除", "克隆"]

def workspaceWords : List String :=
  ["file", "repo", "repository", "project", "code", "test", "build",
    "workspace", "directory", "path", "github", ".py", ".rs", ".ts", ".tsx",
    ".js", ".json", ".toml", ".md"]

def workspaceSigns : List String :=
  ["檔案", "文件", "專案", "项目", "程式碼", "代码", "測試", "测试", "目錄", "目录",
    "路徑", "工作區", "工作区", "倉庫", "仓库"]

def mentionsAny (text : List Char) (needles : List String) : Bool :=
  needles.any fun needle => containsBlock needle.toList text

/-- The prompt that starts the work: the last message of the user, as long as
no tool was used. -/
def initialPrompt (body : Json) : Option String :=
  match body.get "input" with
  | some (.str prompt) => some prompt
  | some (.arr items) =>
    if items.any isToolOutputItem then none
    else
      let last := items.reverse.find? fun item =>
        (item.get "role").bind Json.asStr = some "user"
      some (((((last.bind (Json.get "content")).map
        (contentToText crates)).bind Json.asStr)).getD "")
  | some _ => some ""
  | none => none

def shouldRequireInitialWorkspaceTool (body : Json) : Bool :=
  (initialPrompt crates body).any fun prompt =>
    let text := prompt.toList
    let lower := text.flatMap lowerForSearch
    (mentionsAny lower actionWords || mentionsAny text actionSigns) &&
      (mentionsAny lower workspaceWords || mentionsAny text workspaceSigns)

def toolContinuityText : String :=
  "\n".intercalate
    ["Tool-use continuity for this Codex task:",
      "- Use the native Chat Completions tool_calls field whenever a tool is " ++
        "needed. Never serialize <tool_call>, <think>, tool arguments, " ++
        "function results, tool_call_id markers, or internal reasoning into " ++
        "assistant content.",
      "- If you say you will inspect, clone, create, edit, run, test, or " ++
        "otherwise act on the workspace, issue the corresponding native tool " ++
        "call in the same response.",
      "- Do not end the turn with only a promise, an observation marker, or " ++
        "an announcement of future work.",
      "- After receiving a tool result, either issue the next native tool " ++
        "call or provide a user-visible final answer when the task is " ++
        "complete.",
      "- Continue using tools until the requested task is complete or you " ++
        "are genuinely blocked."]

/-- The input items in their public form with their provenance, and the tools
that they declare.  An input that is no list is taken as it is. -/
def chatInputItems (replay : ReplayContext) (body : Json) :
    Except String (List (Json × ChatMessageProvenance) × List Json) :=
  let tagged (items : List Json) : List (Json × ChatMessageProvenance) :=
    items.zipIdx.map fun entry => (entry.1, replay.provenanceForItem entry.2)
  match body.get "input" with
  | some (.arr items) => normalizeInputItems crates profile (tagged items)
  | _ => .ok (tagged (requestInputItems body), [])

/-- The functions of a Chat request. -/
def chatRequestTools (raw embedded : List Json) :
    Except String (List Json) := do
  let tools ← mergedTools crates .chat profile raw embedded
  deduplicateFunctionTools crates .chat (tools ++ delegationTools .chat profile)

/-- The system messages in front of the conversation. -/
def leadingSystem (body : Json) (tools : List Json) : ChatProjection :=
  (((body.get "instructions").bind Json.asStr).map fun text =>
    (TranscriptMessage.system (.str text), .synthetic)).toList ++
  (if tools.isEmpty then []
    else [(.system (.str toolContinuityText), .synthetic)])

/-- The transcript of the items behind the leading system messages. -/
def chatTranscript (capabilities : RuntimeChatCapabilities)
    (leading : ChatProjection) (items : List (Json × ChatMessageProvenance))
    (replayReasoning vision : Bool) : Except String ChatProjection := do
  let projected ← projectChatItems crates leading items replayReasoning vision
  let reconciled ← reconcilePartialChatToolContinuations
    (coalesceAdjacentChatAssistantMessages projected)
  return applyCheckpointResumeTail crates
    (applyNeutralUserBridge crates capabilities
      (collapseSystemMessagesToHead crates reconciled))

/-- The fields of a Responses request that a Chat request keeps. -/
def keptChatFields : List String :=
  ["temperature", "top_p", "max_tokens", "max_completion_tokens",
    "parallel_tool_calls", "prompt_cache_key"]

/-- The Chat request of a transcript.  The fields of `body` are those of the
Responses request, whose input is in its public form. -/
def chatBody (body : Json) (tools : List Json) (projection : ChatProjection) :
    Json :=
  let stream := ((body.get "stream").bind Json.asBool).getD true
  let base := [("model", (body.get "model").getD .null),
    ("messages", Json.arr (projection.map fun pair => pair.1.toJson)),
    ("stream", .bool stream)]
  let equipped :=
    if tools.isEmpty then base
    else
      let listed := base ++ [("tools", .arr tools)]
      if hasAutoOrMissingToolChoice body &&
          shouldRequireInitialWorkspaceTool crates body then
        listed ++ [("tool_choice", .str "required")]
      else
        listed ++ ((body.get "tool_choice").map fun choice =>
          ("tool_choice", normalizeChatToolChoice choice)).toList
  let counted :=
    if stream then
      equipped ++ [("stream_options", .obj [("include_usage", .bool true)])]
    else equipped
  let kept := counted ++ keptChatFields.filterMap fun key =>
    (body.get key).map fun value => (key, value)
  .obj
    (if ((Json.obj kept).get "max_tokens").isSome then kept
      else kept ++ ((body.get "max_output_tokens").map fun value =>
        ("max_tokens", value)).toList)

def responsesToChatProjection (capabilities : RuntimeChatCapabilities)
    (replay : ReplayContext) (vision : Bool) (body : Json) :
    Except String (Json × ChatProjection) := do
  if !body.isObject then throw "Responses-to-Chat body must be a JSON object"
  let (items, embedded) ← chatInputItems crates profile replay body
  let tools ← chatRequestTools crates profile (requestTools body) embedded
  let projection ← chatTranscript crates capabilities
    (leadingSystem body tools) items
    (shouldReplayReasoning capabilities replay) vision
  let public' :=
    if ((body.get "input").bind Json.asArr).isSome then
      putField "input" (.arr (items.map Prod.fst)) body
    else body
  return (chatBody crates public' tools projection, projection)

/-- Chat options of a provider. -/
def applyProviderChatOptions (route : ProfileAdapterRoute) (body : Json) :
    Json :=
  let nvidiaNim := containsBlock "integrate.api.nvidia.com".toList
    (lowerAscii route.baseUrl)
  let model := lowerAscii route.upstreamModel
  if !nvidiaNim then body
  else
    let body := dropField "prompt_cache_key" body
    if containsBlock "nemotron".toList model ||
        containsBlock "reasoning".toList model then
      match body with
      | .obj fields =>
        let seeded :=
          [("temperature", .nat 1),
            -- the double nearest to 0.95
            ("top_p", .num (.float 0x3FEE666666666666)),
            ("chat_template_kwargs",
              .obj [("enable_thinking", .bool true)])].foldl orInsert fields
        let budget := max 1 (min 16384
          ((((Json.obj seeded).get "max_tokens").bind
            Json.asU64).getD 16384))
        .obj (orInsert seeded ("reasoning_budget", .nat budget))
      | other => other
    else body

/-! Images of a request that is too large. -/

def opencodeGoRequestBodyBytes : Nat := 9 * 1024 * 1024 / 2

def opencodeGoRequestTargetBytes : Nat := 4 * 1024 * 1024

def maxCompressibleImageBase64Bytes : Nat := 64 * 1024 * 1024

/-- `text.trim_end_matches('/')`. -/
def trimEndSlashes (text : String) : String :=
  String.ofList (text.toList.reverse.dropWhile (· = '/')).reverse

/-- Drop a suffix that a pasted address may have. -/
def dropUrlSuffix (path suffix : String) : String :=
  if suffix.length < path.length &&
      suffix.toList.isSuffixOf (lowerAscii path) then
    trimEndSlashes (String.ofList (path.toList.take
      (path.length - suffix.length)))
  else path

def normalizeOpencodeBaseUrl (crates : AdapterCrates) (baseUrl : String) :
    String :=
  let trimmed := String.ofList (Text.trim baseUrl.toList)
  match crates.parseUrl trimmed with
  | none => trimEndSlashes trimmed
  | some url =>
    let path := ["/models", "/chat/completions", "/responses"].foldl
      dropUrlSuffix (trimEndSlashes url.path)
    let normalized := crates.printUrl
      { url with
        host := url.host.map fun host => String.ofList (lowerAscii host)
        query := none
        fragment := none
        path }
    if normalized.toList.getLast? = some '/' then
      String.ofList normalized.toList.dropLast
    else normalized

/-- Whether an address is the root of OpenCode Go. -/
def isOpencodeGoEndpoint (crates : AdapterCrates) (baseUrl : String) : Bool :=
  (crates.parseUrl (normalizeOpencodeBaseUrl crates baseUrl)).any fun url =>
    url.scheme = "https" && url.username = "" && url.password.isNone &&
      url.port.isNone &&
      (url.host.any fun host => lowerAscii host = "opencode.ai".toList) &&
      trimEndSlashes url.path = "/zen/go/v1"

/-- A data image as a JPEG, if that is smaller. -/
def compressDataImage (crates : AdapterCrates) (maxLongEdge quality : Nat)
    (url : String) : Option String :=
  match Text.find [','] url.toList with
  | none => none
  | some comma =>
    let metadata := url.toList.take comma
    let encoded := String.ofList (url.toList.drop (comma + 1))
    if !";base64".toList.isSuffixOf metadata ||
        maxCompressibleImageBase64Bytes < encoded.utf8ByteSize then none
    else
      ((crates.recompress encoded maxLongEdge quality).map
        ("data:image/jpeg;base64," ++ ·)).filter fun compressed =>
          compressed.utf8ByteSize < url.utf8ByteSize

def rewriteDataImage (crates : AdapterCrates) (maxLongEdge quality : Nat)
    (text : String) : String :=
  if startsWith text "data:image/" then
    (compressDataImage crates maxLongEdge quality text).getD text
  else text

mutual

/-- Change every string of a value. -/
def mapStrings (change : String → String) : Json → Json
  | .str text => .str (change text)
  | .arr items => .arr (mapItems change items)
  | .obj fields => .obj (mapFields change fields)
  | value => value

def mapItems (change : String → String) : List Json → List Json
  | [] => []
  | item :: rest => mapStrings change item :: mapItems change rest

def mapFields (change : String → String) :
    List (String × Json) → List (String × Json)
  | [] => []
  | (name, value) :: rest =>
    (name, mapStrings change value) :: mapFields change rest

end

def rewriteDataImages (crates : AdapterCrates) (maxLongEdge quality : Nat) :
    Json → Json :=
  mapStrings (rewriteDataImage crates maxLongEdge quality)

/-- Smaller and smaller images until the request fits. -/
def fitPasses (crates : AdapterCrates) (targetBytes : Nat) :
    List (Nat × Nat) → Json → Json
  | [], body => body
  | (longEdge, quality) :: rest, body =>
    let body := rewriteDataImages crates longEdge quality body
    if (crates.toStr body).utf8ByteSize ≤ targetBytes then body
    else fitPasses crates targetBytes rest body

def fitChatImagesToProviderRequestBudget (crates : AdapterCrates)
    (route : ProfileAdapterRoute) (body : Json) : Json :=
  if !isOpencodeGoEndpoint crates route.baseUrl ||
      (crates.toStr body).utf8ByteSize ≤ opencodeGoRequestBodyBytes then body
  else
    fitPasses crates opencodeGoRequestTargetBytes
      [(2048, 85), (1536, 78), (1024, 72), (768, 65)] body

/-! Diagnostics of a transcript. -/

def roleSequenceLimit : Nat := 160

/-- The roles in turn; `summary` holds those before. -/
def roleSequenceFrom (summary : String) : List String → String
  | [] => summary
  | role :: rest =>
    let summary := if summary = "" then role else summary ++ ">" ++ role
    if roleSequenceLimit ≤ summary.length then
      String.ofList (summary.toList.take (roleSequenceLimit - 3)) ++ "..."
    else roleSequenceFrom summary rest

/-- What the calls of a transcript and their results add up to. -/
structure ChatMessageShape where
  toolPairs : Nat := 0
  orphanToolResults : Nat := 0
  duplicateToolIds : Nat := 0
  openCalls : List String := []
  seenCalls : List String := []

namespace ChatMessageShape

def noteCall (shape : ChatMessageShape) (call : ToolCall) : ChatMessageShape :=
  match call.id.asStr with
  | none => shape
  | some id =>
    { shape with
      duplicateToolIds := shape.duplicateToolIds +
        (if id ∈ shape.seenCalls then 1 else 0)
      seenCalls := id :: shape.seenCalls
      openCalls := if id ∈ shape.openCalls then shape.openCalls
        else id :: shape.openCalls }

def note (shape : ChatMessageShape) (message : TranscriptMessage) :
    ChatMessageShape :=
  match message with
  | .assistant _ calls _ => calls.foldl noteCall shape
  | .tool callId _ =>
    match callId.filter fun id => id ∈ shape.openCalls with
    | some id =>
      { shape with
        toolPairs := shape.toolPairs + 1
        openCalls := shape.openCalls.erase id }
    | none =>
      { shape with orphanToolResults := shape.orphanToolResults + 1 }
  | _ => shape

end ChatMessageShape

/-- `hash_text` of the diagnostics. -/
def userTurnSafetyHash (crates : Crates) (occurrenceId : String) : String :=
  "sha256:" ++ String.ofList
    (((crates.sha256 occurrenceId).take 16).flatMap hexByte)

def chatTranscriptDiagnostics (crates : Crates) (projection : ChatProjection)
    (replay : ReplayContext) : HarnessTranscriptDiagnostics :=
  let messages := projection.map Prod.fst
  let suffix := replay.suffixEnd - replay.suffixStart
  let shape := messages.foldl ChatMessageShape.note {}
  { messageCount := messages.length
    roleSequence := roleSequenceFrom "" (messages.map TranscriptMessage.role)
    emptyMessages := messages.countP
      fun message => !messageHasSemanticContent crates message
    toolPairs := shape.toolPairs
    orphanToolResults := shape.orphanToolResults + shape.openCalls.length
    duplicateToolIds := shape.duplicateToolIds
    firstRole := messages.head?.map TranscriptMessage.role
    lastRole := messages.getLast?.map TranscriptMessage.role
    replayPrefixItems := replay.prefixLen
    currentSuffixItems := if suffix = 2 ^ 64 - 1 then 0 else suffix
    userMessages := messages.countP TranscriptMessage.isUser
    assistantMessages := messages.countP TranscriptMessage.isAssistant
    toolMessages := messages.countP TranscriptMessage.isTool
    systemMessages := messages.countP TranscriptMessage.isSystem
    toolCalls := (messages.flatMap TranscriptMessage.calls).length
    summaries := messages.countP (isChatCheckpointMessage crates)
    overlapSkips := replay.overlapSkipped
    neutralBridges := messages.countP (isBridge crates)
    checkpointResumes := messages.countP fun message =>
      message.isUser && isCheckpointResumeText (message.plainText crates)
    compactionRepairs := replay.compactionRepairs
    userTurnHashes := (projection.filter fun pair => pair.1.isUser).filterMap
      fun pair => pair.2.occurrenceId.map (userTurnSafetyHash crates) }

/-! The translation. -/

variable (crates : AdapterCrates) (route : ProfileAdapterRoute)

/-- The scrubbed request under the model's upstream name.  Naming the model of
a body that is neither an object nor `null` would panic. -/
def canonicalRequest (original : Json) : Except String Json :=
  let portable := materializePortableAgentMessages original
  let scrubbed :=
    if route.reasoning then stripOpaqueReasoning portable
    else stripCrossRealmFields portable
  match scrubbed with
  | .obj _ => .ok (putField "model" (.str route.upstreamModel) scrubbed)
  | .null => .ok (.obj [("model", .str route.upstreamModel)])
  | _ => .error "cannot access key \"model\" in JSON value"

/-- The request as the provider's own normalization leaves it. -/
def normalizedRequest (crates : Crates) (route : ProfileAdapterRoute)
    (profile : HarnessProfile) (webSearchEnabled : Bool) (canonical : Json) :
    Except String Json :=
  if route.providerKind = .grokCli then
    normalizeGrokResponsesRequest crates profile webSearchEnabled canonical
  else if route.providerKind = .openAiCompatible &&
      route.wire = .responses then
    normalizeCompatibleResponsesRequest crates profile webSearchEnabled
      canonical
  else .ok canonical

/-- A Chat request as the provider takes it. -/
def sentChatRequest (effort : Option String) (suppressRequired : Bool)
    (chat : Json) : Json :=
  let chosen :=
    if suppressRequired && toolText chat "tool_choice" = some "required" then
      dropField "tool_choice" chat
    else chat
  let optioned := applyProviderChatOptions route chosen
  let transported :=
    match effort with
    | some effort => applyReasoningEffortTransport effort
        route.reasoningEffortTransport optioned
    | none => optioned
  fitChatImagesToProviderRequestBudget crates route transported

/-- The end of the translation on the Chat wire. -/
def prepareChatRequest (profile : HarnessProfile) (replay : ReplayContext)
    (effort : Option String) (canonical : Json) :
    Except String PreparedUpstreamRequest := do
  let suppressRequired := route.reasoning &&
    hasAutoOrMissingToolChoice canonical &&
    shouldRequireInitialWorkspaceTool crates.toCrates canonical
  let (chat, projection) ← responsesToChatProjection crates.toCrates profile
    route.chatCapabilities replay route.vision canonical
  checkChatTranscriptInvariants crates.toCrates projection
    route.chatCapabilities
  return {
    body := sentChatRequest crates route effort suppressRequired chat
    chatDiagnostics :=
      some (chatTranscriptDiagnostics crates.toCrates projection replay)
    chatProvenance := projection.map Prod.snd }

/-- The request with the instructions that the model will read. -/
def instructedRequest (profile : HarnessProfile)
    (environment : ExecutionEnvironment) (catalogEntry : Option Json)
    (guidance : EvalGuidance) (normalized : Json) : Json :=
  applyRequestTimeInstructions profile
    (modelVisibleTools normalized route.wire profile).1 environment
    ((catalogEntry.bind (Json.get "base_instructions")).bind Json.asStr)
    guidance normalized

/-- What a translated route refuses before anything is translated. -/
def admitRequest (crates : Crates) (profile : HarnessProfile)
    (catalogEntry : Option Json) (original : Json) : Except String Unit := do
  if let some entry := catalogEntry then
    profile.verifyCatalogEntry crates entry
  if profile.kind.isTranslated &&
      profile.multiAgentPolicy ≠ .vellumDelegated then
    if let some effort := requestEffort original then
      if isDelegatingEffort effort then
        throw ("reasoning effort `" ++ effort ++ "` requires a verified " ++
          "delegation runtime, which this route does not have; choose a " ++
          "lower effort")

def prepareUpstreamRequestDetails (guidance : EvalGuidance) (original : Json)
    (route : ProfileAdapterRoute) (profile : HarnessProfile)
    (environment : ExecutionEnvironment) (catalogEntry : Option Json)
    (webSearchEnabled : Bool) (replay : ReplayContext) :
    Except String PreparedUpstreamRequest := do
  admitRequest crates.toCrates profile catalogEntry original
  if !profile.kind.isTranslated then
    return { body := prepareOpenaiOfficialNative original route.upstreamModel }
  let canonical ← canonicalRequest route original
  let effort := requestEffort canonical
  let normalized ← normalizedRequest crates.toCrates route profile
    webSearchEnabled canonical
  let instructed := instructedRequest route profile environment catalogEntry
    guidance normalized
  match route.wire with
  | .responses =>
    let body :=
      match effort, route.reasoningEffortTransport with
      | some effort, .providerSpecific =>
        applyReasoningEffortTransport effort .providerSpecific instructed
      | _, _ => instructed
    return { body }
  | .chat => prepareChatRequest crates route profile replay effort instructed

/-! What a translation that succeeds went through. -/

/-- A request without tools leaves with the instructions it has, as long as no
switch is set. -/
theorem applyRequestTimeInstructions_nil (profile : HarnessProfile)
    (environment : ExecutionEnvironment) (baseline : Option String)
    (body : Json) :
    applyRequestTimeInstructions profile [] environment baseline {} body =
      body :=
  if_pos rfl

section Outcome

variable (crates : AdapterCrates) (guidance : EvalGuidance) (original : Json)
  {route : ProfileAdapterRoute} {profile : HarnessProfile}
  (environment : ExecutionEnvironment) (catalogEntry : Option Json)
  (webSearchEnabled : Bool) (replay : ReplayContext)
  {prepared : PreparedUpstreamRequest} {canonical : Json}

/-- A translated request is admitted and normalized, and then prepared for its
wire. -/
theorem prepare_iff (htranslated : profile.kind.isTranslated = true)
    (hcanonical : canonicalRequest route original = .ok canonical) :
    prepareUpstreamRequestDetails crates guidance original route profile
        environment catalogEntry webSearchEnabled replay = .ok prepared ↔
      admitRequest crates.toCrates profile catalogEntry original = .ok () ∧
      ∃ normalized instructed, normalizedRequest crates.toCrates route profile
          webSearchEnabled canonical = .ok normalized ∧
        instructedRequest route profile environment catalogEntry guidance
          normalized = instructed ∧
        match route.wire with
        | .responses => prepared = { body := (
            match requestEffort canonical, route.reasoningEffortTransport with
            | some effort, .providerSpecific =>
              applyReasoningEffortTransport effort .providerSpecific instructed
            | _, _ => instructed) }
        | .chat => prepareChatRequest crates route profile replay
            (requestEffort canonical) instructed = .ok prepared := by
  rw [prepareUpstreamRequestDetails]
  cases hadmit : admitRequest crates.toCrates profile catalogEntry original with
  | error error => simp [bind, Except.bind]
  | ok _ =>
    cases hnormalized : normalizedRequest crates.toCrates route profile
        webSearchEnabled canonical with
    | error error => simp [bind, Except.bind, htranslated, hcanonical, hnormalized]
    | ok normalized =>
      cases route.wire <;> simp [bind, Except.bind, pure, Except.pure,
        htranslated, hcanonical, hnormalized, eq_comm]

end Outcome

end Vellum.Proxy
