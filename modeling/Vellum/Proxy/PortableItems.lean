/-
What a translated provider is shown of a conversation: the input items of a
request without provider state, private items turned into public ones
(`vellum-proxy-runtime/src/adapter.rs` and the item half of
`profile_adapter.rs`).
-/
import Vellum.Proxy.ToolSurface

namespace Vellum.Proxy

/-- A value that is a string and not blank. -/
def nonemptyJsonString (value : Option Json) : Bool :=
  (value.bind Json.asStr).any fun text => !isBlank text

def itemType (item : Json) : Option String := (item.get "type").bind Json.asStr

/-! The scrub of a request. -/

mutual

/-- `strip_cross_realm_fields`.  Stripping the children first makes no
difference to what an object loses. -/
def stripCrossRealmFields : Json → Json
  | .obj fields =>
    .obj (Json.removeField "encrypted_content"
      (Json.removeField "reasoning_content" (crossRealmFields fields)))
  | .arr items => .arr (crossRealmItems items)
  | value => value

def crossRealmFields : List (String × Json) → List (String × Json)
  | [] => []
  | (name, value) :: rest =>
    (name, stripCrossRealmFields value) :: crossRealmFields rest

def crossRealmItems : List Json → List Json
  | [] => []
  | item :: rest =>
    if itemType item = some "reasoning" then crossRealmItems rest
    else stripCrossRealmFields item :: crossRealmItems rest

end

def reasoningHasSummaryText (summary : Option Json) : Bool :=
  ((summary.bind Json.asArr).getD []).any fun part =>
    nonemptyJsonString (part.get "text")

/-- What an object loses and gets; the decisions are made on the object as it
arrived (`source`). -/
def keptSummary (source : Json) (fields : List (String × Json)) :
    List (String × Json) :=
  let isReasoning := itemType source = some "reasoning"
  let readable := (((source.get "reasoning_content").or
    (source.get "content")).bind Json.asStr).map fun text =>
      String.ofList (Text.trim text.toList)
  let summarized :=
    match readable.filter (· ≠ "") with
    | some text =>
      if isReasoning && !reasoningHasSummaryText (source.get "summary") then
        Json.insertField "summary"
          (.arr [.obj [("type", .str "summary_text"), ("text", .str text)]])
          fields
      else fields
    | none => fields
  let stripped := Json.removeField "reasoning_content"
    (Json.removeField "encrypted_content" summarized)
  if isReasoning then Json.removeField "content" stripped else stripped

/-- A reasoning item that says nothing is not kept. -/
def hasReadableReasoning (item : Json) : Bool :=
  itemType item ≠ some "reasoning" ||
    reasoningHasSummaryText (item.get "summary") ||
    nonemptyJsonString (item.get "content")

mutual

/-- `strip_opaque_reasoning_keep_summary`.  A summary that is put in has
nothing to strip, so the children can be done first. -/
def stripOpaqueReasoning : Json → Json
  | .obj fields => .obj (keptSummary (.obj fields) (opaqueFields fields))
  | .arr items => .arr ((opaqueItems items).filter hasReadableReasoning)
  | value => value

def opaqueFields : List (String × Json) → List (String × Json)
  | [] => []
  | (name, value) :: rest =>
    (name, stripOpaqueReasoning value) :: opaqueFields rest

def opaqueItems : List Json → List Json
  | [] => []
  | item :: rest => stripOpaqueReasoning item :: opaqueItems rest

end

/-! The scrub leaves the names of the fields it goes through. -/

theorem names_crossRealmFields (fields : List (String × Json)) :
    (crossRealmFields fields).map Prod.fst = fields.map Prod.fst := by
  induction fields with
  | nil => rfl
  | cons field rest ih =>
    rw [crossRealmFields, List.map_cons, List.map_cons, ih]

theorem names_opaqueFields (fields : List (String × Json)) :
    (opaqueFields fields).map Prod.fst = fields.map Prod.fst := by
  induction fields with
  | nil => rfl
  | cons field rest ih => rw [opaqueFields, List.map_cons, List.map_cons, ih]

/-! Messages between agents. -/

/-- A message item with one part. -/
def messageItem (role partType text : String) : Json :=
  .obj [("type", .str "message"), ("role", .str role),
    ("content", .arr [.obj [("type", .str partType), ("text", .str text)]])]

/-- The text of a part; the encrypted one holds the plain text here. -/
def agentPartText (part : Json) : Option String :=
  match itemType part with
  | some kind =>
    if kind ∈ ["input_text", "output_text", "text"] then
      (part.get "text").bind Json.asStr
    else if kind = "encrypted_content" then
      (part.get "encrypted_content").bind Json.asStr
    else none
  | none => none

variable (crates : Crates) (item : Json)

/-- The text of an `agent_message`, if every part of it can be read. -/
def agentMessageAsText : Option String := do
  let parts ← (item.get "content").bind Json.asArr
  if parts.isEmpty then none
  let texts ← parts.mapM agentPartText
  let body := "\n".intercalate texts
  if isBlank body then none
  let author := ((item.get "author").bind Json.asStr).getD ""
  let recipient := ((item.get "recipient").bind Json.asStr).getD ""
  if isBlank author then some body
  else if isBlank recipient then some ("[agent " ++ author ++ "] " ++ body)
  else
    some ("[agent " ++ author ++ " -> " ++ recipient ++ "] " ++ body)

/-- An `agent_message` as a turn of the user. -/
def portableAgentMessage : Json :=
  match item with
  | .obj _ =>
    if itemType item = some "agent_message" then
      match agentMessageAsText item with
      | some text => messageItem "user" "input_text" text
      | none => item
    else item
  | _ => item

def materializePortableAgentMessages (body : Json) : Json :=
  body.modify "input" fun input =>
    match input with
    | .arr items => .arr (items.map portableAgentMessage)
    | other => other

/-- What stands for an item the route cannot show. -/
def unsupportedHistoryMarker (kind : String) (profile : HarnessProfile)
    (fields : List (String × Json)) : Json :=
  messageItem "assistant" "output_text" <|
    match profile.historyContract with
    | .losslessTranslated =>
      "[unsupported on this route: a previous Codex `" ++ kind ++
      "` is omitted from history. Do not assume its result; re-derive " ++
      "anything you need.]"
    | .native =>
      "[Previous Codex " ++ kind ++ "; history only] " ++
      crates.toStr (.obj fields)

/-! One input item. -/

def stripInternalFields (fields : List (String × Json)) :
    List (String × Json) :=
  fields.filter fun field => !startsWith field.1 "internal_"

/-- The fields of a checkpoint's metadata. -/
def checkpointKeys : List String :=
  ["vellum_checkpoint", "checkpoint", "schema_version",
    "checkpoint_schema_version", "continuity_kind", "retained_tail_count",
    "source_hash", "checkpoint_hash"]

def stripVellumCheckpointMetadata (fields : List (String × Json)) :
    List (String × Json) :=
  match (Json.obj fields).get "metadata" with
  | some (.obj meta') =>
    if ((Json.obj meta').get "vellum_checkpoint").bind Json.asStr =
          some "canonical" ||
        ((Json.obj meta').get "checkpoint").isSome then
      let rest := checkpointKeys.foldl
        (fun left key => Json.removeField key left) meta'
      if rest.isEmpty then Json.removeField "metadata" fields
      else Json.insertField "metadata" (.obj rest) fields
    else fields
  | _ => fields

/-- The arguments of a translated custom tool call. -/
def customToolArguments (name : String) (input : Json) : String :=
  let field := if isApplyPatch name then "patch" else "input"
  crates.toStr (.obj [(field, input)])

/-- A part of a command line: a string, or the text of a value. -/
def commandPart : Json → Json
  | .str text => .str text
  | other => .str (crates.toStr other)

/-- The arguments of a shell call. -/
def shellCallArguments (action : Option Json) : Json :=
  let command := match action.bind (Json.get "command") with
    | some (.arr parts) => Json.arr (parts.map (commandPart crates))
    | some (.str text) => .str text
    | _ => .arr []
  let workdir := (action.bind fun action =>
    (action.get "working_directory").or (action.get "workdir")).filter
      (!·.isNull)
  let timeout := (action.bind (Json.get "timeout_ms")).filter (!·.isNull)
  .obj ([("command", command)] ++
    (workdir.map fun value => ("workdir", value)).toList ++
    (timeout.map fun value => ("timeout_ms", value)).toList)

def publicCall (name callId : Json) (arguments : String) : Json :=
  .obj [("type", .str "function_call"), ("name", name), ("call_id", callId),
    ("arguments", .str arguments)]

def publicOutput (callId output : Json) : Json :=
  .obj [("type", .str "function_call_output"), ("call_id", callId),
    ("output", output)]

/-- A reasoning item with a summary keeps its id and its summary. -/
def sanitizeGrokReasoningItem : Option Json :=
  if reasoningHasSummaryText (item.get "summary") then
    let id := (item.get "id").filter fun id => nonemptyJsonString (some id)
    some (.obj ([("type", .str "reasoning")] ++
      (id.map fun id => ("id", id)).toList ++
      ((item.get "summary").map fun summary => ("summary", summary)).toList))
  else none

/-- The call id of a private call. -/
def privateCallId (fallback : String) : Json :=
  ((item.get "call_id").or (item.get "id")).getD (.str fallback)

/-- A function call with its namespace in its name. -/
def foldNamespace (fields : List (String × Json)) : List (String × Json) :=
  let named :=
    match ((Json.obj fields).get "namespace").bind Json.asStr,
        ((Json.obj fields).get "name").bind Json.asStr with
    | some namespaceName, some name =>
      Json.insertField "name"
        (.str (flattenNamespaceName namespaceName name)) fields
    | _, _ => fields
  Json.removeField "namespace" named

/-- An input item in its public form, if it has one, with the tools that it
declares. -/
def normalizeGrokInputItem (profile : HarnessProfile) (item : Json) :
    Except String (Option Json × List Json) :=
  match item with
  | .obj fields =>
    let fields := stripVellumCheckpointMetadata (stripInternalFields fields)
    let item := Json.obj fields
    let kind := (itemType item).getD "message"
    let marker := unsupportedHistoryMarker crates kind profile fields
    if kind = "additional_tools" then .ok (none, requestTools item)
    else if kind = "reasoning" then .ok (sanitizeGrokReasoningItem item, [])
    else if kind = "item_reference" then .ok (none, [])
    else if kind = "compaction" then
      .error ("unmaterialized compaction item reached Grok transform; " ++
        "refusing to drop context")
    else if kind = "local_shell_call" then
      let callId := (((item.get "call_id").or (item.get "id")).bind
        Json.asStr).getD "call_shell"
      .ok (some (publicCall (.str "shell") (.str callId)
        (crates.toStr (shellCallArguments crates (item.get "action")))), [])
    else if kind = "local_shell_call_output" then
      .ok (some (publicOutput
        ((item.get "call_id").getD (.str "call_shell"))
        ((item.get "output").getD (.str ""))), [])
    else if kind = "custom_tool_call" then
      let name := ((item.get "name").bind Json.asStr).getD "custom_tool"
      let input := (item.get "input").getD (.str "")
      .ok (some (publicCall (.str name)
        (privateCallId item "call_custom")
        (customToolArguments crates name input)), [])
    else if kind = "tool_search_call" then
      .ok (some (publicCall (.str "tool_search")
        (privateCallId item "call_tool_search")
        (crates.toStr ((item.get "arguments").getD (.obj [])))), [])
    else if kind = "custom_tool_call_output" ∨ kind = "tool_search_output" then
      .ok (some (publicOutput
        ((item.get "call_id").getD (.str "call_tool"))
        (.str (crates.toStr
          (((item.get "output").or (item.get "tools")).getD .null)))), [])
    else if kind = "function_call" then
      .ok (some (.obj (foldNamespace fields)), [])
    else if kind = "message" ∨ kind = "function_call_output" then
      .ok (some item, [])
    else if kind = "agent_message" then
      .ok (some (((agentMessageAsText item).map fun text =>
        messageItem "user" "input_text" text).getD marker), [])
    -- searches and computer calls are private items as well
    else .ok (some marker, [])
  | _ => .ok (some item, [])

/-- The items of a request in their public form, each with its tag, and the
tools they declare. -/
def normalizeInputItems {τ : Type} (crates : Crates)
    (profile : HarnessProfile) :
    List (Json × τ) → Except String (List (Json × τ) × List Json)
  | [] => .ok ([], [])
  | (item, tag) :: rest => do
      let (normalized, tools) ← normalizeGrokInputItem crates profile item
      let (items, embedded) ← normalizeInputItems crates profile rest
      return ((normalized.map fun item => (item, tag)).toList ++ items,
        tools ++ embedded)

/-! What compatible Responses servers take. -/

/-- The text of a content part under its `text` field. -/
def lowerablePartText (part : Json) : Option String :=
  ((part.get "text").bind Json.asStr).filter (· ≠ "")

inductive OutputPart where
  | text (text : String)
  | empty
  | image
  | file
  | unsupported
deriving DecidableEq

def outputPart (part : Json) : OutputPart :=
  match itemType part with
  | some kind =>
    if kind ∈ ["input_text", "text"] then
      ((lowerablePartText part).map OutputPart.text).getD .empty
    else if kind ∈ ["input_image", "image"] then .image
    else if kind ∈ ["input_file", "file"] then .file
    else ((lowerablePartText part).map OutputPart.text).getD .unsupported
  | none => ((lowerablePartText part).map OutputPart.text).getD .unsupported

/-- The note about parts that could not be carried. -/
def countNote (count : Nat) (note : String) : List String :=
  if count = 0 then []
  else ["[Tool returned " ++ toString count ++ " " ++ note ++ "]"]

def portableCompatibleToolOutput : Json → String
  | .str text => text
  | .null => ""
  | .arr items =>
    let parts := items.map outputPart
    let texts := parts.filterMap fun part =>
      match part with
      | .text text => some text
      | _ => none
    let lines := texts ++
      countNote (parts.count .image)
        "image(s) that this route cannot transport." ++
      countNote (parts.count .file)
        "file(s) that this compatible route cannot transport." ++
      countNote (parts.count .unsupported) "unsupported content part(s)."
    if lines.isEmpty then "[Tool completed without textual output.]"
    else "\n".intercalate lines
  | other => crates.toStr other

/-- The output of a function call as text. -/
def lowerFunctionOutput : Json :=
  match item with
  | .obj fields =>
    if itemType item = some "function_call_output" then
      let output := (item.get "output").getD .null
      .obj (Json.insertField "output"
        (.str (portableCompatibleToolOutput crates output))
        (Json.removeField "output" fields))
    else item
  | _ => item

def isInstructionItem : Bool :=
  let role := (item.get "role").bind Json.asStr
  role = some "system" || role = some "developer"

def instructionText : String :=
  ((item.get "content").map (contentToPlainString crates)).getD ""

end Vellum.Proxy
