/-
The streaming Chat adapter (`vellum-proxy-runtime/src/adapter.rs`,
`ChatSseAdapter`): Chat completion chunks in, Responses events out.  Reasoning,
text and tool calls open an output item when their first piece arrives; the
end of the stream closes every open item and emits the terminal event.
-/
import Vellum.Library.OrderedMap
import Vellum.Proxy.ContentFilter
import Vellum.Proxy.ToolContext

namespace Vellum.Proxy

/-- The events of a Responses stream. -/
inductive StreamEvent where
  | created (response : Json)
  | inProgress (response : Json)
  | outputItemAdded (outputIndex : Nat) (item : Json)
  | outputItemDone (outputIndex : Nat) (item : Json)
  | reasoningPartAdded (outputIndex : Nat)
  | reasoningTextDelta (outputIndex : Nat) (delta : String)
  | reasoningTextDone (outputIndex : Nat) (text : String)
  | reasoningPartDone (outputIndex : Nat) (text : String)
  | contentPartAdded (outputIndex : Nat)
  | outputTextDelta (outputIndex : Nat) (delta : String)
  | outputTextDone (outputIndex : Nat) (text : String)
  | contentPartDone (outputIndex : Nat) (text : String)
  | argumentsDelta (itemId : String) (outputIndex : Nat) (delta : String)
  | argumentsDone (itemId : String) (outputIndex : Nat) (arguments : String)
  | customInputDelta (itemId : String) (outputIndex : Nat) (delta : String)
  | customInputDone (itemId : String) (outputIndex : Nat) (input : String)
  | failed (response : Json)
  | completed (response : Json)
deriving DecidableEq

namespace StreamEvent

def kind : StreamEvent → String
  | created _ => "response.created"
  | inProgress _ => "response.in_progress"
  | outputItemAdded .. => "response.output_item.added"
  | outputItemDone .. => "response.output_item.done"
  | reasoningPartAdded _ => "response.reasoning_summary_part.added"
  | reasoningTextDelta .. => "response.reasoning_summary_text.delta"
  | reasoningTextDone .. => "response.reasoning_summary_text.done"
  | reasoningPartDone .. => "response.reasoning_summary_part.done"
  | contentPartAdded _ => "response.content_part.added"
  | outputTextDelta .. => "response.output_text.delta"
  | outputTextDone .. => "response.output_text.done"
  | contentPartDone .. => "response.content_part.done"
  | argumentsDelta .. => "response.function_call_arguments.delta"
  | argumentsDone .. => "response.function_call_arguments.done"
  | customInputDelta .. => "response.custom_tool_call_input.delta"
  | customInputDone .. => "response.custom_tool_call_input.done"
  | failed _ => "response.failed"
  | completed _ => "response.completed"

def summaryPart (text : String) : Json :=
  .obj [("type", .str "summary_text"), ("text", .str text)]

def textPart (text : String) : Json :=
  .obj [("type", .str "output_text"), ("text", .str text),
    ("annotations", .arr [])]

/-- The fields of an event behind its type. -/
def fields : StreamEvent → List (String × Json)
  | created response | inProgress response | failed response
  | completed response => [("response", response)]
  | outputItemAdded index item | outputItemDone index item =>
    [("output_index", .nat index), ("item", item)]
  | reasoningPartAdded index =>
    [("output_index", .nat index), ("summary_index", .nat 0),
      ("part", summaryPart "")]
  | reasoningTextDelta index delta =>
    [("output_index", .nat index), ("summary_index", .nat 0),
      ("delta", .str delta)]
  | reasoningTextDone index text =>
    [("output_index", .nat index), ("summary_index", .nat 0),
      ("text", .str text)]
  | reasoningPartDone index text =>
    [("output_index", .nat index), ("summary_index", .nat 0),
      ("part", summaryPart text)]
  | contentPartAdded index =>
    [("output_index", .nat index), ("content_index", .nat 0),
      ("part", textPart "")]
  | outputTextDelta index delta =>
    [("output_index", .nat index), ("content_index", .nat 0),
      ("delta", .str delta)]
  | outputTextDone index text =>
    [("output_index", .nat index), ("content_index", .nat 0),
      ("text", .str text)]
  | contentPartDone index text =>
    [("output_index", .nat index), ("content_index", .nat 0),
      ("part", textPart text)]
  | argumentsDelta id index delta | customInputDelta id index delta =>
    [("item_id", .str id), ("output_index", .nat index),
      ("delta", .str delta)]
  | argumentsDone id index arguments =>
    [("item_id", .str id), ("output_index", .nat index),
      ("arguments", .str arguments)]
  | customInputDone id index input =>
    [("item_id", .str id), ("output_index", .nat index),
      ("input", .str input)]

/-- The terminal events of a stream. -/
def isTerminal : StreamEvent → Bool
  | failed _ | completed _ => true
  | _ => false

end StreamEvent

/-- An event with the sequence number it was emitted under. -/
structure NumberedEvent where
  sequence : Nat
  event : StreamEvent

/-- The payload of an event: the sequence number is the last field. -/
def NumberedEvent.value (numbered : NumberedEvent) : Json :=
  .obj (("type", .str numbered.event.kind) :: numbered.event.fields ++
    [("sequence_number", .nat numbered.sequence)])

/-- An event on the wire. -/
def NumberedEvent.text (crates : Crates) (numbered : NumberedEvent) : String :=
  "event: " ++ numbered.event.kind ++ "\ndata: " ++
    crates.toStr numbered.value ++ "\n\n"

structure StreamToolCall where
  id : String := ""
  name : String := ""
  arguments : String := ""
  outputIndex : Nat := 0
  added : Bool := false
deriving DecidableEq

structure ChatSseAdapter where
  responseId : String
  model : String
  sequence : Nat := 0
  started : Bool := false
  finished : Bool := false
  terminalSeen : Bool := false
  messageAdded : Bool := false
  reasoningAdded : Bool := false
  reasoningIndex : Option Nat := none
  messageIndex : Option Nat := none
  nextOutputIndex : Nat := 0
  text : String := ""
  reasoning : String := ""
  usage : Option Json := none
  contentFilter : ModelContentFilter := {}
  toolContext : CodexToolContext := {}
  namespaceContext : NamespaceToolContext := {}
  toolCalls : List (Nat × StreamToolCall) := []

/-- The readings of the clock while one call of the adapter runs. -/
structure Clock where
  created : Nat
  inProgress : Nat
  completed : Nat

/-- The reasoning text of a message or delta, under either of its names. -/
def chatReasoningText (object : Json) : Option String :=
  (["reasoning_content", "reasoning"].findSome? fun key =>
    (object.get key).bind Json.asStr).filter (· ≠ "")

def toolArgumentsText (crates : Crates) : Option Json → String
  | some (.str arguments) => arguments
  | some .null | none => "{}"
  | some arguments => crates.toStr arguments

/-- A token count of a usage report. -/
def tokenCount (value : Option Json) : Option Nat := value.bind Json.asU64

def normalizedUsage (usage : Option Json) : Option Json :=
  (usage.filter (· ≠ .null)).map fun usage =>
    let input := (tokenCount ((usage.get "prompt_tokens").or
      (usage.get "input_tokens"))).getD 0
    let output := (tokenCount ((usage.get "completion_tokens").or
      (usage.get "output_tokens"))).getD 0
    let total := (tokenCount (usage.get "total_tokens")).getD
      (min (input + output) (2 ^ 64 - 1))
    let cached := (tokenCount
      ((usage.pointer ["prompt_tokens_details", "cached_tokens"]).or
        (usage.pointer ["input_tokens_details", "cached_tokens"]))).getD 0
    let reasoning := (tokenCount
      ((usage.pointer ["completion_tokens_details", "reasoning_tokens"]).or
        (usage.pointer
          ["output_tokens_details", "reasoning_tokens"]))).getD 0
    .obj [("input_tokens", .nat input),
      ("input_tokens_details", .obj [("cached_tokens", .nat cached)]),
      ("output_tokens", .nat output),
      ("output_tokens_details", .obj [("reasoning_tokens", .nat reasoning)]),
      ("total_tokens", .nat total)]

/-- Add the usage to a response, behind its other fields. -/
def withUsage (usage : Option Json) (fields : List (String × Json)) : Json :=
  match usage with
  | some usage => .obj (Json.insertField "usage" usage fields)
  | none => .obj fields

/-- The error of a turn that produced nothing. -/
def emptyCompletion : Json :=
  .obj [("type", .str "empty_completion"),
    ("message", .str
      "Upstream model ended without a native tool call or user-visible answer")]

def reasoningItem (id : String) (summary : List Json) : Json :=
  .obj [("type", .str "reasoning"), ("id", .str id),
    ("summary", .arr summary)]

def completedMessageItem (id phase text : String) : Json :=
  .obj [("type", .str "message"), ("id", .str id),
    ("role", .str "assistant"), ("status", .str "completed"),
    ("phase", .str phase), ("content", .arr [StreamEvent.textPart text])]

/-- The fields of a function call item. -/
def functionCallFields (id callId name arguments status : String) :
    List (String × Json) :=
  [("type", .str "function_call"), ("id", .str id), ("call_id", .str callId),
    ("name", .str name), ("arguments", .str arguments),
    ("status", .str status)]

def functionCallItem (id callId name arguments status : String) : Json :=
  .obj (functionCallFields id callId name arguments status)

def customCallItem (id callId name input : String) : Json :=
  .obj [("type", .str "custom_tool_call"), ("id", .str id),
    ("call_id", .str callId), ("name", .str name), ("input", .str input),
    ("status", .str "completed")]

variable (crates : Crates) (front id callId name arguments status : String)

theorem startsWith_append (rest : String) :
    startsWith (front ++ rest) front = true := by
  rw [startsWith, String.toList_append]
  exact List.isPrefixOf_iff_prefix.mpr (List.prefix_append _ _)

theorem normalizedItemId_of_startsWith {front source : String}
    (hfront : startsWith source front = true) :
    normalizedItemId crates front source = source := by
  rw [normalizedItemId, if_pos hfront]

theorem startsWith_normalizedItemId (source : String) :
    startsWith (normalizedItemId crates front source) front = true := by
  rw [normalizedItemId]
  split
  · assumption
  · rw [String.append_assoc]
    exact startsWith_append front _

theorem normalizedItemId_twice (source : String) :
    normalizedItemId crates front (normalizedItemId crates front source) =
      normalizedItemId crates front source :=
  normalizedItemId_of_startsWith crates (startsWith_normalizedItemId ..)

theorem restoreToolSearch_functionCall :
    CodexToolContext.restoreToolSearch crates
      (functionCallFields id callId name arguments status) =
      [("type", .str "tool_search_call"),
        ("id", .str (normalizedItemId crates "tsc_" id)),
        ("call_id", .str callId), ("status", .str status),
        ("arguments", CodexToolContext.toolSearchArguments crates
          (some (.str arguments))), ("execution", .str "client")] :=
  rfl

theorem restoreCustom_functionCall :
    CodexToolContext.restoreCustom crates name
      (functionCallFields id callId name arguments status) =
      [("type", .str "custom_tool_call"),
        ("id", .str (normalizedItemId crates "ctc_" id)),
        ("call_id", .str callId), ("name", .str name),
        ("status", .str status),
        ("input", .str (if isApplyPatch name then
          normalizePatchDelimiters (customToolInput crates arguments)
          else customToolInput crates arguments))] :=
  rfl

theorem restoreOutputItem_functionCall (context : CodexToolContext)
    (id callId name arguments status : String) :
    context.restoreOutputItem crates
      (functionCallItem id callId name arguments status) =
      if context.isToolSearch name then
        .obj (CodexToolContext.restoreToolSearch crates
          (functionCallFields id callId name arguments status))
      else if context.isCustom name then
        .obj (CodexToolContext.restoreCustom crates name
          (functionCallFields id callId name arguments status))
      else functionCallItem id callId name arguments status :=
  rfl

/-- The name a call is shown under. -/
def shownName (name : String) : String :=
  if name = "" then "unknown" else name

theorem isToolSearch_unknown (context : CodexToolContext) :
    context.isToolSearch "unknown" = false := by
  simp [CodexToolContext.isToolSearch]

/-- The id of a call: the provider's, or one made from a number. -/
def callIdOr (id : String) (number : Nat) : String :=
  if id = "" then "call_" ++ toString number else id

/-- One fragment of a tool call. -/
structure CallFragment where
  index : Nat
  id : String
  name : String
  arguments : String
deriving DecidableEq

def CallFragment.read (crates : Crates) (call : Json) : CallFragment where
  index := ((call.get "index").bind Json.asU64).getD 0
  id := ((call.get "id").bind Json.asStr).getD ""
  name := ((call.pointer ["function", "name"]).bind Json.asStr).getD ""
  arguments := toolArgumentsText crates (call.pointer ["function", "arguments"])

/-- The entry after a fragment. -/
def StreamToolCall.extend (entry : StreamToolCall) (fragment : CallFragment) :
    StreamToolCall :=
  { entry with
    id := if fragment.id = "" then entry.id else fragment.id
    name := entry.name ++ fragment.name
    arguments := entry.arguments ++ fragment.arguments
    added := true }

/-- The parts of a chunk the adapter reads. -/
structure ChatDelta where
  usage : Option Json := none
  reasoning : Option String := none
  content : Option String := none
  calls : List CallFragment := []
  terminal : Bool := false

def ChatDelta.read (crates : Crates) (value : Json) : ChatDelta :=
  let delta := (value.pointer ["choices", "0", "delta"]).getD (.obj [])
  { usage := (value.get "usage").filter (· ≠ .null)
    reasoning := chatReasoningText delta
    content := ((delta.get "content").bind Json.asStr).filter (· ≠ "")
    calls := (((delta.get "tool_calls").bind Json.asArr).getD []).map
      (CallFragment.read crates)
    terminal := (value.pointer ["choices", "0", "finish_reason"]).any
      (· ≠ .null) }

namespace ChatSseAdapter

/-- A new adapter for a request; `millis` is the clock reading its response
id is made from. -/
def newWithContext (model : String) (toolContext : CodexToolContext)
    (namespaceContext : NamespaceToolContext) (millis : Nat) :
    ChatSseAdapter where
  responseId := "resp_vellum_" ++ toString millis
  model := model
  toolContext := toolContext
  namespaceContext := namespaceContext

def newWithRequest (model : String) (request : Json) (millis : Nat) :
    ChatSseAdapter :=
  newWithContext model (CodexToolContext.fromRequest request)
    (NamespaceToolContext.fromRequest request) millis

/-- The state after a part of a call, and the events it pushed. -/
abbrev Emission := ChatSseAdapter × List StreamEvent

/-- Two parts of a call, one after the other. -/
def Emission.andThen (first : Emission)
    (second : ChatSseAdapter → Emission) : Emission :=
  let next := second first.1
  (next.1, first.2 ++ next.2)

variable (crates : Crates) (adapter : ChatSseAdapter)

def reasoningId : String :=
  adapter.responseId ++ "_reasoning"

def messageId : String :=
  adapter.responseId ++ "_message"

/-- The phase of the message: more is to come when tools were called. -/
def phase : String :=
  if adapter.toolCalls.isEmpty then "final_answer" else "commentary"

def startedResponse (now : Nat) : Json :=
  .obj [("id", .str adapter.responseId), ("object", .str "response"),
    ("status", .str "in_progress"), ("model", .str adapter.model),
    ("created_at", .nat now), ("output", .arr [])]

variable (clock : Clock) (adapter : ChatSseAdapter)

def ensureStarted : Emission :=
  if adapter.started then (adapter, [])
  else
    ({ adapter with started := true },
      [.created (adapter.startedResponse clock.created),
        .inProgress (adapter.startedResponse clock.inProgress)])

/-- Open the reasoning item with its first piece. -/
def openReasoning : Emission :=
  if adapter.reasoningAdded then (adapter, [])
  else
    let outputIndex := adapter.nextOutputIndex
    ({ adapter with
        reasoningAdded := true
        nextOutputIndex := outputIndex + 1
        reasoningIndex := some outputIndex },
      [.outputItemAdded outputIndex (reasoningItem adapter.reasoningId []),
        .reasoningPartAdded outputIndex])

/-- A piece of reasoning is forwarded as it is. -/
def pushReasoning (reasoning : String) : Emission :=
  Emission.andThen
    (openReasoning { adapter with reasoning := adapter.reasoning ++ reasoning })
    fun adapter =>
      (adapter,
        [.reasoningTextDelta (adapter.reasoningIndex.getD 0) reasoning])

/-- Open the message with its first visible text. -/
def openMessage : Emission :=
  if adapter.messageAdded then (adapter, [])
  else
    let outputIndex := adapter.nextOutputIndex
    ({ adapter with
        messageAdded := true
        nextOutputIndex := outputIndex + 1
        messageIndex := some outputIndex },
      [.outputItemAdded outputIndex
          (.obj [("type", .str "message"), ("id", .str adapter.messageId),
            ("role", .str "assistant"), ("status", .str "in_progress"),
            ("content", .arr [])]),
        .contentPartAdded outputIndex])

/-- Text that passed the content filter. -/
def showText (content : String) : Emission :=
  if content = "" then (adapter, [])
  else
    Emission.andThen
      (openMessage { adapter with text := adapter.text ++ content })
      fun adapter =>
        (adapter, [.outputTextDelta (adapter.messageIndex.getD 0) content])

def pushContent (content : String) : Emission :=
  let filtered := adapter.contentFilter.push content.toList
  showText { adapter with contentFilter := filtered.1 }
    (String.ofList filtered.2)

/-- The item that announces a call. -/
def addedCallItem (context : CodexToolContext) (callId name : String) : Json :=
  context.restoreOutputItem crates
    (functionCallItem (normalizedItemId crates (context.itemFront name) callId)
      callId (shownName name) "" "in_progress")

/-- A call of a tool that has a native form gets no argument deltas. -/
def translatedNative (context : CodexToolContext) (name : String) : Bool :=
  context.isCustom name || context.isToolSearch name

/-- The entry a fragment belongs to, a new one if it is the first. -/
def callEntry (index : Nat) : StreamToolCall :=
  (OrderedMap.lookup index adapter.toolCalls).getD
    { outputIndex := adapter.nextOutputIndex }

def pushCall (fragment : CallFragment) : Emission :=
  let old := adapter.callEntry fragment.index
  let entry := old.extend fragment
  let callId := callIdOr entry.id fragment.index
  let added :=
    if old.added then []
    else [.outputItemAdded entry.outputIndex
      (addedCallItem crates adapter.toolContext callId entry.name)]
  let delta :=
    if fragment.arguments = "" ||
        translatedNative adapter.toolContext entry.name then []
    else [.argumentsDelta callId entry.outputIndex fragment.arguments]
  ({ adapter with
      toolCalls := OrderedMap.upsert fragment.index (fun _ => entry)
        adapter.toolCalls
      nextOutputIndex :=
        if (OrderedMap.lookup fragment.index adapter.toolCalls).isSome then
          adapter.nextOutputIndex
        else adapter.nextOutputIndex + 1 },
    added ++ delta)

def pushCalls (crates : Crates) (adapter : ChatSseAdapter) :
    List CallFragment → Emission
  | [] => (adapter, [])
  | fragment :: fragments =>
    (pushCall crates adapter fragment).andThen fun adapter =>
      pushCalls crates adapter fragments

def countUsage (usage : Option Json) : ChatSseAdapter :=
  match usage with
  | some usage => { adapter with usage := normalizedUsage (some usage) }
  | none => adapter

/-- A part a chunk may leave out. -/
def pushIfPresent (push : ChatSseAdapter → String → Emission)
    (piece : Option String) (adapter : ChatSseAdapter) : Emission :=
  match piece with
  | some text => push adapter text
  | none => (adapter, [])

/-- The parts of a chunk that stand before its tool calls. -/
def beforeCalls (delta : ChatDelta) : Emission :=
  ((ensureStarted clock (adapter.countUsage delta.usage)).andThen
    (pushIfPresent pushReasoning delta.reasoning)).andThen
    (pushIfPresent pushContent delta.content)

/-- The parts of a chunk in turn. -/
def pushParts (delta : ChatDelta) : Emission :=
  (beforeCalls clock adapter delta).andThen fun adapter =>
    pushCalls crates adapter delta.calls

/-- A chunk.  A finish reason is remembered, the stream is not finished on
it: the usage may still follow. -/
def pushDelta (delta : ChatDelta) : Emission :=
  let emission := pushParts crates clock adapter delta
  ({ emission.1 with
      terminalSeen := emission.1.terminalSeen || delta.terminal }, emission.2)

/-- The events that close the reasoning item. -/
def reasoningDone : List StreamEvent :=
  match adapter.reasoningIndex with
  | none => []
  | some outputIndex =>
    [.reasoningTextDone outputIndex adapter.reasoning,
      .reasoningPartDone outputIndex adapter.reasoning,
      .outputItemDone outputIndex (reasoningItem adapter.reasoningId
        [StreamEvent.summaryPart adapter.reasoning])]

/-- The events that close the message. -/
def messageDone : List StreamEvent :=
  match adapter.messageIndex with
  | none => []
  | some outputIndex =>
    [.outputTextDone outputIndex adapter.text,
      .contentPartDone outputIndex adapter.text,
      .outputItemDone outputIndex (completedMessageItem adapter.messageId
        adapter.phase adapter.text)]

/-- The events that close a tool call. -/
def callDone (call : StreamToolCall) : List StreamEvent :=
  let context := adapter.toolContext
  let callId := callIdOr call.id call.outputIndex
  let itemId := normalizedItemId crates (context.itemFront call.name) callId
  if context.isCustom call.name then
    let input := customToolInput crates call.arguments
    (if input = "" then []
      else [.customInputDelta itemId call.outputIndex input]) ++
    [.customInputDone itemId call.outputIndex input,
      .outputItemDone call.outputIndex
        (customCallItem itemId callId (shownName call.name) input)]
  else if context.isToolSearch call.name then
    [.outputItemDone call.outputIndex (context.restoreOutputItem crates
      (functionCallItem itemId callId "tool_search" call.arguments
        "completed"))]
  else
    [.argumentsDone itemId call.outputIndex call.arguments,
      .outputItemDone call.outputIndex (adapter.namespaceContext.restoreItem
        (functionCallItem itemId callId (shownName call.name) call.arguments
          "completed"))]

/-- A tool call in the completed response. -/
def completedCallItem (index : Nat) (call : StreamToolCall) : Json :=
  let context := adapter.toolContext
  let callId := callIdOr call.id index
  let itemId := normalizedItemId crates (context.itemFront call.name) callId
  if context.isCustom call.name then
    customCallItem itemId callId (shownName call.name)
      (customToolInput crates call.arguments)
  else
    adapter.namespaceContext.restoreItem (context.restoreOutputItem crates
      (functionCallItem itemId callId (shownName call.name) call.arguments
        "completed"))

/-- The output of the completed response. -/
def completedOutput : List Json :=
  (if adapter.reasoning = "" then []
    else [reasoningItem adapter.reasoningId
      [StreamEvent.summaryPart adapter.reasoning]]) ++
  (if adapter.text = "" then []
    else [completedMessageItem adapter.messageId adapter.phase adapter.text]) ++
  adapter.toolCalls.map fun entry =>
    completedCallItem crates adapter entry.1 entry.2

def completedResponse (now : Nat) (adapter : ChatSseAdapter) : Json :=
  withUsage adapter.usage
    [("id", .str adapter.responseId), ("object", .str "response"),
      ("status", .str "completed"), ("model", .str adapter.model),
      ("created_at", .nat now),
      ("output", .arr (adapter.completedOutput crates)),
      ("store", .bool false)]

def failedResponse : Json :=
  withUsage adapter.usage
    [("id", .str adapter.responseId), ("object", .str "response"),
      ("status", .str "failed"), ("model", .str adapter.model),
      ("output", .arr []), ("error", emptyCompletion)]

/-- The terminal event: nothing to show and no call is a failure. -/
def terminalEvent (now : Nat) (adapter : ChatSseAdapter) : StreamEvent :=
  if isBlank adapter.text && adapter.toolCalls.isEmpty then
    .failed adapter.failedResponse
  else .completed (adapter.completedResponse crates now)

/-- What the filter held back is shown when the stream ends. -/
def showTrailing : Emission :=
  let trailing := adapter.contentFilter.finish
  showText { adapter with contentFilter := trailing.1 }
    (String.ofList trailing.2)

/-- Every open item is closed, then the terminal event is emitted. -/
def closeItems (now : Nat) (adapter : ChatSseAdapter) : List StreamEvent :=
  adapter.reasoningDone ++ adapter.messageDone ++
    adapter.toolCalls.flatMap (fun entry => callDone crates adapter entry.2) ++
    [terminalEvent crates now adapter]

/-- What happens before the items are closed. -/
def beforeClose : Emission :=
  (ensureStarted clock adapter).andThen showTrailing

/-- The end of the stream. -/
def finish : Emission :=
  (beforeClose clock adapter).andThen fun adapter =>
    (adapter, closeItems crates clock.completed adapter)

variable (clock : Clock) (adapter : ChatSseAdapter)

@[simp]
theorem toolCalls_ensureStarted :
    (ensureStarted clock adapter).1.toolCalls = adapter.toolCalls := by
  rw [ensureStarted]
  split <;> rfl

@[simp]
theorem toolCalls_pushReasoning (reasoning : String) :
    (pushReasoning adapter reasoning).1.toolCalls = adapter.toolCalls := by
  simp only [pushReasoning, openReasoning, Emission.andThen]
  split <;> rfl

@[simp]
theorem toolCalls_showText (content : String) :
    (showText adapter content).1.toolCalls = adapter.toolCalls := by
  simp only [showText, openMessage, Emission.andThen]
  split
  · rfl
  · split <;> rfl

@[simp]
theorem toolCalls_pushContent (content : String) :
    (pushContent adapter content).1.toolCalls = adapter.toolCalls :=
  toolCalls_showText _ _

theorem toolCalls_pushIfPresent {push : ChatSseAdapter → String → Emission}
    (hpush : ∀ adapter text,
      (push adapter text).1.toolCalls = adapter.toolCalls)
    (piece : Option String) (adapter : ChatSseAdapter) :
    (pushIfPresent push piece adapter).1.toolCalls = adapter.toolCalls := by
  cases piece with
  | none => rfl
  | some text => exact hpush adapter text

@[simp]
theorem toolCalls_countUsage (usage : Option Json) :
    (adapter.countUsage usage).toolCalls = adapter.toolCalls := by
  cases usage <;> rfl

theorem toolCalls_beforeCalls (delta : ChatDelta) :
    (beforeCalls clock adapter delta).1.toolCalls = adapter.toolCalls := by
  simp only [beforeCalls, Emission.andThen]
  rw [toolCalls_pushIfPresent toolCalls_pushContent,
    toolCalls_pushIfPresent toolCalls_pushReasoning, toolCalls_ensureStarted,
    toolCalls_countUsage]

theorem toolCalls_beforeClose :
    (beforeClose clock adapter).1.toolCalls = adapter.toolCalls :=
  (toolCalls_showText _ _).trans (toolCalls_ensureStarted clock adapter)

/-- What no part of a call changes. -/
structure SameStream (before after : ChatSseAdapter) : Prop where
  responseId : after.responseId = before.responseId
  model : after.model = before.model
  sequence : after.sequence = before.sequence
  finished : after.finished = before.finished
  toolContext : after.toolContext = before.toolContext
  namespaceContext : after.namespaceContext = before.namespaceContext

namespace SameStream

variable {adapter : ChatSseAdapter}

theorem refl (adapter : ChatSseAdapter) : SameStream adapter adapter :=
  ⟨rfl, rfl, rfl, rfl, rfl, rfl⟩

theorem trans {first second third : ChatSseAdapter}
    (hfirst : SameStream first second) (hsecond : SameStream second third) :
    SameStream first third :=
  ⟨hsecond.responseId.trans hfirst.responseId,
    hsecond.model.trans hfirst.model,
    hsecond.sequence.trans hfirst.sequence,
    hsecond.finished.trans hfirst.finished,
    hsecond.toolContext.trans hfirst.toolContext,
    hsecond.namespaceContext.trans hfirst.namespaceContext⟩

theorem ensureStarted (clock : Clock) (adapter : ChatSseAdapter) :
    SameStream adapter (ensureStarted clock adapter).1 := by
  rw [ChatSseAdapter.ensureStarted]
  split <;> exact ⟨rfl, rfl, rfl, rfl, rfl, rfl⟩

theorem pushReasoning (adapter : ChatSseAdapter) (reasoning : String) :
    SameStream adapter (pushReasoning adapter reasoning).1 := by
  simp only [ChatSseAdapter.pushReasoning, openReasoning, Emission.andThen]
  split <;> exact ⟨rfl, rfl, rfl, rfl, rfl, rfl⟩

theorem showText (adapter : ChatSseAdapter) (content : String) :
    SameStream adapter (showText adapter content).1 := by
  simp only [ChatSseAdapter.showText, openMessage, Emission.andThen]
  split
  · exact refl adapter
  · split <;> exact ⟨rfl, rfl, rfl, rfl, rfl, rfl⟩

/-- Text shown after the filter has moved on. -/
theorem showFiltered (adapter : ChatSseAdapter) (filter : ModelContentFilter)
    (content : String) :
    SameStream adapter (ChatSseAdapter.showText
      { adapter with contentFilter := filter } content).1 := by
  have hfilter : SameStream adapter { adapter with contentFilter := filter } :=
    ⟨rfl, rfl, rfl, rfl, rfl, rfl⟩
  exact hfilter.trans (showText _ content)

theorem pushContent (adapter : ChatSseAdapter) (content : String) :
    SameStream adapter (pushContent adapter content).1 :=
  showFiltered adapter _ _

theorem pushIfPresent {push : ChatSseAdapter → String → Emission}
    (hpush : ∀ adapter text, SameStream adapter (push adapter text).1)
    (piece : Option String) (adapter : ChatSseAdapter) :
    SameStream adapter (pushIfPresent push piece adapter).1 := by
  cases piece with
  | none => exact refl adapter
  | some text => exact hpush adapter text

theorem pushCalls (crates : Crates) (adapter : ChatSseAdapter)
    (fragments : List CallFragment) :
    SameStream adapter (pushCalls crates adapter fragments).1 := by
  induction fragments generalizing adapter with
  | nil => exact refl adapter
  | cons fragment fragments ih =>
    have hfirst : SameStream adapter
        (pushCall crates adapter fragment).1 :=
      ⟨rfl, rfl, rfl, rfl, rfl, rfl⟩
    exact hfirst.trans (ih _)

theorem countUsage (adapter : ChatSseAdapter) (usage : Option Json) :
    SameStream adapter (adapter.countUsage usage) := by
  cases usage <;> exact ⟨rfl, rfl, rfl, rfl, rfl, rfl⟩

theorem beforeCalls (clock : Clock) (adapter : ChatSseAdapter)
    (delta : ChatDelta) :
    SameStream adapter (beforeCalls clock adapter delta).1 :=
  (countUsage adapter delta.usage).trans ((ensureStarted clock _).trans
    ((pushIfPresent pushReasoning delta.reasoning _).trans
      (pushIfPresent pushContent delta.content _)))

theorem pushDelta (crates : Crates) (clock : Clock)
    (adapter : ChatSseAdapter) (delta : ChatDelta) :
    SameStream adapter (pushDelta crates clock adapter delta).1 := by
  have hparts : SameStream adapter (pushParts crates clock adapter delta).1 :=
    (beforeCalls clock adapter delta).trans (pushCalls crates _ delta.calls)
  exact hparts.trans ⟨rfl, rfl, rfl, rfl, rfl, rfl⟩

theorem beforeClose (clock : Clock) (adapter : ChatSseAdapter) :
    SameStream adapter (beforeClose clock adapter).1 :=
  (ensureStarted clock adapter).trans (showFiltered _ _ _)

theorem finish (crates : Crates) (clock : Clock) (adapter : ChatSseAdapter) :
    SameStream adapter (finish crates clock adapter).1 :=
  beforeClose clock adapter

end SameStream

/-- The events of a call under the sequence numbers that follow. -/
def number (sequence : Nat) : List StreamEvent → List NumberedEvent
  | [] => []
  | event :: rest => ⟨sequence, event⟩ :: number (sequence + 1) rest

/-- `self.event` for each event of a call in turn. -/
def numbered (emission : Emission) : ChatSseAdapter × List NumberedEvent :=
  ({ emission.1 with
      sequence := emission.1.sequence + emission.2.length },
    number emission.1.sequence emission.2)

def pushData (crates : Crates) (clock : Clock) (adapter : ChatSseAdapter)
    (data : String) : ChatSseAdapter × List NumberedEvent :=
  if adapter.finished then (adapter, [])
  else if Text.trim data.toList = "[DONE]".toList then
    numbered (finish crates clock { adapter with finished := true })
  else
    match crates.fromStr data with
    | none => (adapter, [])
    | some value =>
      numbered (pushDelta crates clock adapter (ChatDelta.read crates value))

def finishIfTerminal (crates : Crates) (clock : Clock)
    (adapter : ChatSseAdapter) : ChatSseAdapter × List NumberedEvent :=
  if adapter.finished || !adapter.terminalSeen then (adapter, [])
  else numbered (finish crates clock { adapter with finished := true })

/-- The calls the relay makes on an adapter. -/
inductive ChatCall where
  | pushData (clock : Clock) (data : String)
  | finishIfTerminal (clock : Clock)

def call (crates : Crates) (adapter : ChatSseAdapter) :
    ChatCall → ChatSseAdapter × List NumberedEvent
  | .pushData clock data => pushData crates clock adapter data
  | .finishIfTerminal clock => finishIfTerminal crates clock adapter

/-- A sequence of calls: the last state and every event emitted on the way. -/
def run (crates : Crates) (adapter : ChatSseAdapter) :
    List ChatCall → ChatSseAdapter × List NumberedEvent
  | [] => (adapter, [])
  | next :: calls =>
    let first := call crates adapter next
    let rest := run crates first.1 calls
    (rest.1, first.2 ++ rest.2)

/-- Data that opens a brace does not end the stream. -/
theorem not_done_of_object {text : String} {rest : List Char}
    (htext : text.toList = '\x7b' :: rest) :
    Text.trim text.toList ≠ "[DONE]".toList := by
  rw [htext, Text.trim_cons (by decide)]
  intro hdone
  exact absurd (List.cons.inj hdone).1 (by decide)

theorem call_pushData_object {crates : Crates} {clock : Clock}
    {adapter : ChatSseAdapter} {text : String} {rest : List Char}
    {value : Json} (hopen : adapter.finished = false)
    (htext : text.toList = '\x7b' :: rest)
    (hparse : crates.fromStr text = some value) :
    call crates adapter (.pushData clock text) =
      numbered (pushDelta crates clock adapter
        (ChatDelta.read crates value)) := by
  rw [call, pushData, hopen, if_neg Bool.false_ne_true,
    if_neg (not_done_of_object htext), hparse]

end ChatSseAdapter

end Vellum.Proxy
