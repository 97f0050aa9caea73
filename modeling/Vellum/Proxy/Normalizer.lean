/-
The normalizer of third-party Responses streams
(`vellum-proxy-runtime/src/streaming.rs`, `ThirdPartySseNormalizer`).  Each
upstream block is parsed and checked, freed of private fields, replays, opaque
reasoning and control tokens, and then handled by its event: text deltas and
items are forwarded, calls of declared tools are restored, and finished
messages are held back until the turn's phase is known.
-/
import Vellum.Proxy.ChatResponse
import Vellum.Proxy.PayloadCleaning
import Vellum.Proxy.Sse

namespace Vellum.Proxy

open List

/-- A known event with a payload the protocol does not define. -/
structure SseProtocolError where
  event : String
  detail : String

def maxProtocolDiagnosticChars : Nat := 160

/-- Provider text on one line and within the budget. -/
def boundedDiagnostic (text : String) : String :=
  let singleLine := text.toList.map fun c =>
    if c = '\n' ∨ c = '\r' then ' ' else c
  if singleLine.length ≤ maxProtocolDiagnosticChars then
    String.ofList singleLine
  else
    String.ofList (singleLine.take (maxProtocolDiagnosticChars - 1) ++ ['…'])

def SseProtocolError.new (event detail : String) : SseProtocolError :=
  ⟨boundedDiagnostic event, boundedDiagnostic detail⟩

def jsonKind : Json → String
  | .null => "null"
  | .bool _ => "a boolean"
  | .num _ => "a number"
  | .str _ => "a string"
  | .arr _ => "an array"
  | .obj _ => "an object"

def isKnownProtocolEvent (event : String) : Bool :=
  startsWith event "response." || event = "error"

/-- The fields must be left out, null or of the expected kind. -/
def checkFields (event : String) (value : Json) (expected : String)
    (isExpected : Json → Bool) : List String → Except SseProtocolError Unit
  | [] => .ok ()
  | field :: rest =>
    match value.get field with
    | some nested =>
      if isExpected nested || nested = .null then
        checkFields event value expected isExpected rest
      else
        .error (SseProtocolError.new event ("`" ++ field ++ "` is " ++
          jsonKind nested ++ " where the protocol defines " ++ expected))
    | none => checkFields event value expected isExpected rest

/-- The shapes every handler relies on. -/
def validateKnownSseEvent (event : String) (value : Json) :
    Except SseProtocolError Unit :=
  if !isKnownProtocolEvent event then .ok ()
  else if !value.isObject then
    .error (SseProtocolError.new event ("payload is " ++ jsonKind value ++
      " where the protocol defines an object"))
  else do
    checkFields event value "an object" Json.isObject
      ["item", "part", "response"]
    checkFields event value "a string" (fun nested => nested.asStr.isSome)
      ["delta", "text", "arguments", "input"]
    checkFields event value "a non-negative integer"
      (fun nested => nested.asU64.isSome)
      ["sequence_number", "output_index", "content_index", "summary_index"]

/-- A frame for the client: a protocol event, or a block passed on as text. -/
inductive Frame where
  | event (name : String) (value : Json)
  | raw (text : List Char)
deriving DecidableEq

/-- `format_sse_value`. -/
def Frame.text (crates : Crates) : Frame → String
  | .event name value =>
    "event: " ++ name ++ "\ndata: " ++ crates.toStr value ++ "\n\n"
  | .raw text => String.ofList text

def failedSseEvent (message : String) : Frame :=
  .event "response.failed"
    (.obj [("type", .str "response.failed"), ("sequence_number", .nat 0),
      ("response", .obj [("object", .str "response"),
        ("status", .str "failed"),
        ("error", .obj [("type", .str "vellum_upstream_stream_error"),
          ("message", .str message)])])])

/-- The event name and the data of a block. -/
def parseSseValue (crates : Crates) (block : List Char) :
    Option (String × Json) :=
  let event := (Text.lines block).findSome? (stripSseField · "event".toList)
  match (Text.lines block).findSome? (stripSseField · "data".toList) with
  | none => none
  | some data =>
    (crates.fromStr (String.ofList data)).map fun value =>
      (((event.map String.ofList).or
        ((value.get "type").bind Json.asStr)).getD "message", value)

theorem toList_dataFront : "data: ".toList = ['d', 'a', 't', 'a', ':', ' '] :=
  String.toList_ofList

variable {text : String}

theorem lines_data (hfeed : '\n' ∉ text.toList) :
    Text.linesFrom [] ("data: ".toList ++ text.toList) =
      ["data: ".toList ++ text.toList] := by
  rw [Text.linesFrom_of_notMem, toList_dataFront]
  · rfl
  · simpa [toList_dataFront] using hfeed

theorem stripSseField_data (text : String) :
    stripSseField ("data: ".toList ++ text.toList) "data".toList =
      some text.toList := by
  simp [stripSseField, Text.stripPrefix, toList_dataFront]

/-- A block of one data line goes by the type of its payload. -/
theorem parseSseValue_data (crates : Crates) (hfeed : '\n' ∉ text.toList) :
    parseSseValue crates ("data: " ++ text).toList =
      (crates.fromStr text).map fun value =>
        (((value.get "type").bind Json.asStr).getD "message", value) := by
  have hevent : stripSseField ("data: ".toList ++ text.toList)
      "event".toList = none := by
    simp [stripSseField, Text.stripPrefix, toList_dataFront]
  simp only [parseSseValue, Text.lines, String.toList_append,
    lines_data hfeed, findSome?_cons, hevent, stripSseField_data,
    findSome?_nil, Option.map_none, Option.none_or, String.ofList_toList]

/-- An event line goes before that type. -/
theorem parseSseValue_event (crates : Crates) {name : String}
    {block : List Char}
    (hblock : block = "event: ".toList ++ name.toList ++
      '\n' :: ("data: ".toList ++ text.toList)) (hname : '\n' ∉ name.toList)
    (hend : name.toList.getLast? ≠ some '\r') (hfeed : '\n' ∉ text.toList) :
    parseSseValue crates block = (crates.fromStr text).map (name, ·) := by
  have hfront : "event: ".toList = ['e', 'v', 'e', 'n', 't', ':', ' '] :=
    String.toList_ofList
  have hline : Text.stripCr ("event: ".toList ++ name.toList) =
      "event: ".toList ++ name.toList := by
    rw [Text.stripCr, if_neg]
    rw [getLast?_append]
    cases hlast : name.toList.getLast? with
    | none => simp [hfront]
    | some c => simpa [hlast] using hend
  have hevent : stripSseField ("event: ".toList ++ name.toList)
      "event".toList = some name.toList := by
    simp [stripSseField, Text.stripPrefix, hfront]
  have hnone : stripSseField ("event: ".toList ++ name.toList)
      "data".toList = none := by
    simp [stripSseField, Text.stripPrefix, hfront]
  have hlines : Text.lines block = ["event: ".toList ++ name.toList,
      "data: ".toList ++ text.toList] := by
    rw [Text.lines, hblock, Text.linesFrom_append, nil_append, hline,
      lines_data hfeed]
    simpa [hfront] using hname
  simp only [parseSseValue, hlines, findSome?_cons, hevent, hnone,
    stripSseField_data, Option.map_some, Option.some_or, Option.getD_some,
    String.ofList_toList]

/-- Control tokens of a block that is no protocol event are stripped; a block
that loses its data is dropped. -/
def sanitizeUnparsedSseBlock (block : List Char) : List Frame :=
  let cleaned :=
    (stripProviderControlTokensFromText false (String.ofList block)).toList
  if cleaned = block then [.raw (block ++ ['\n', '\n'])]
  else if ((Text.lines cleaned).filterMap
      (stripSseField · "data".toList)).any (fun data => !Text.isBlank data) then
    [.raw (cleaned ++ ['\n', '\n'])]
  else []

/-- An item that calls a tool. -/
def isCallItem (item : Json) : Bool :=
  match (item.get "type").bind Json.asStr with
  | some kind =>
    kind = "function_call" || kind = "custom_tool_call" ||
      kind = "tool_search_call"
  | none => false

/-- The items of a response. -/
def outputItems (response : Json) : List Json :=
  ((response.get "output").bind Json.asArr).getD []

def responseContainsFunctionCall (response : Json) : Bool :=
  (outputItems response).any isCallItem

def responseContainsVisibleText (response : Json) : Bool :=
  (outputItems response).any fun item => hasVisiblePart (item.get "content")

def sseValueContainsFunctionCall (value : Json) : Bool :=
  (value.get "item").any isCallItem ||
    (value.get "response").any responseContainsFunctionCall

/-- Give a message without a phase this one. -/
def setPhase (phase : String) (item : Json) : Json :=
  if (item.get "type").bind Json.asStr = some "message" ∧
      ((item.get "phase").all (· = .null)) = true then
    match item with
    | .obj fields => .obj (Json.insertField "phase" (.str phase) fields)
    | _ => item
  else item

/-- `set_message_phase_at_pointer` with the pointer `/item`. -/
def setItemPhase (phase : String) (value : Json) : Json :=
  value.modify "item" (setPhase phase)

/-- Change the items of a response. -/
def mapOutput (change : Json → Json) (response : Json) : Json :=
  response.modify "output" fun output =>
    match output with
    | .arr items => .arr (items.map change)
    | _ => output

def assignResponseMessagePhasesWith (phase : String) (response : Json) :
    Json :=
  mapOutput (setPhase phase) response

def CodexToolContext.restoreResponseTools (crates : Crates)
    (context : CodexToolContext) (response : Json) : Json :=
  mapOutput (context.restoreOutputItem crates) response

/-- Whether `restore_output_item` changes an item. -/
def CodexToolContext.restores (context : CodexToolContext) (item : Json) :
    Bool :=
  item.isObject &&
    (item.get "type").bind Json.asStr = some "function_call" &&
    ((item.get "name").bind Json.asStr).any fun name =>
      context.isToolSearch name || context.isCustom name

structure NativeCustomCall where
  itemId : String := ""
  arguments : String := ""

/-- The state of the normalizer.  A map is the list of its insertions, the
newest first. -/
structure ThirdPartySseNormalizer where
  pendingMessageDone : List Json := []
  sawFunctionCall : Bool := false
  sawVisibleText : Bool := false
  payloadReplayHeuristics : Bool := false
  seenSequenceNumbers : List (String × Nat) := []
  lastTextDeltas : List ((Nat × Nat) × String) := []
  completedReasoningSummaries : List (String × Json) := []
  payloadReplayDrops : Nat := 0
  grokDoomLoopTriggers : List String := []
  toolContext : CodexToolContext := {}
  namespaceContext : NamespaceToolContext := {}
  customCalls : List (Nat × NativeCustomCall) := []
  toolSearchCalls : List Nat := []

namespace ThirdPartySseNormalizer

def new (request : Json) (payloadReplayHeuristics : Bool) :
    ThirdPartySseNormalizer where
  payloadReplayHeuristics := payloadReplayHeuristics
  toolContext := CodexToolContext.fromRequest request
  namespaceContext := NamespaceToolContext.fromRequest request

/-- The triggers of the private loop diagnostic. -/
def doomLoopTriggers (value : Json) : List String :=
  ((((value.pointer ["doom_loop_check", "triggers"]).or
    (value.pointer ["response", "doom_loop_check", "triggers"])).bind
      Json.asArr).getD []).filterMap Json.asStr

variable (crates : Crates) (normalizer : ThirdPartySseNormalizer)

variable (event : String) (value : Json)

def captureGrokDoomLoopTriggers : ThirdPartySseNormalizer :=
  { normalizer with
    grokDoomLoopTriggers := (doomLoopTriggers value).foldl
      (fun known trigger =>
        if trigger ∈ known then known else known ++ [trigger])
      normalizer.grokDoomLoopTriggers }

def isDoomLoopCheck : Bool :=
  event = "response.doom_loop_check" ||
    (value.get "type").bind Json.asStr = some "response.doom_loop_check"

/-- The private field of a terminal response is taken out. -/
def dropDoomLoopCheck : Json :=
  value.modify "response" fun response =>
    match response with
    | .obj fields => .obj (Json.removeField "doom_loop_check" fields)
    | _ => response

def sequenceNumber : Option Nat :=
  (value.get "sequence_number").bind Json.asU64

def outputIndex : Nat :=
  ((value.get "output_index").bind Json.asU64).getD 0

def contentIndex : Nat :=
  ((value.get "content_index").bind Json.asU64).getD 0

/-- The summary of a finished reasoning item is kept for the journal. -/
def recordSummary : ThirdPartySseNormalizer :=
  if event = "response.output_item.done" ∧
      (value.pointer ["item", "type"]).bind Json.asStr = some "reasoning" then
    match (value.pointer ["item", "id"]).bind Json.asStr,
        value.pointer ["item", "summary"] with
    | some id, some summary =>
      { normalizer with
        completedReasoningSummaries :=
          (id, summary) :: normalizer.completedReasoningSummaries }
    | _, _ => normalizer
  else normalizer

/-- The payload as the handlers see it. -/
def cleaned (heuristics : Bool) (value : Json) : Json :=
  stripProviderControlTokens heuristics
    (normalizeReadableReasoning (dropDoomLoopCheck value))

def clean : ThirdPartySseNormalizer × Option Json :=
  (normalizer.recordSummary event
      (normalizeReadableReasoning (dropDoomLoopCheck value)),
    some (cleaned normalizer.payloadReplayHeuristics value))

/-- What is left of a parsed event to handle: nothing of a private or a
replayed one. -/
def accept : ThirdPartySseNormalizer × Option Json :=
  let captured := normalizer.captureGrokDoomLoopTriggers value
  if isDoomLoopCheck event value then (captured, none)
  else
    match sequenceNumber value with
    | some sequence =>
      if (event, sequence) ∈ captured.seenSequenceNumbers then
        (captured, none)
      else
        clean { captured with
          seenSequenceNumbers :=
            (event, sequence) :: captured.seenSequenceNumbers } event value
    | none => clean captured event value

/-- A text delta: whether it is forwarded.  Only the replay heuristics drop a
delta that repeats the one before it. -/
def textDelta : ThirdPartySseNormalizer × Bool :=
  let delta := ((value.get "delta").bind Json.asStr).getD ""
  let key := (outputIndex value, contentIndex value)
  if isBlank delta then (normalizer, false)
  else if normalizer.payloadReplayHeuristics &&
      (sequenceNumber value).isNone &&
      normalizer.lastTextDeltas.lookup key = some delta then
    ({ normalizer with
        payloadReplayDrops :=
          min (normalizer.payloadReplayDrops + 1) (2 ^ 64 - 1) }, false)
  else
    ({ normalizer with
        lastTextDeltas := (key, delta) :: normalizer.lastTextDeltas }, true)

def isTextEvent : Bool :=
  event = "response.output_text.delta" || event = "response.output_text.done"

def noteVisibleText : ThirdPartySseNormalizer :=
  if isTextEvent event &&
      (((value.get "delta").or (value.get "text")).bind Json.asStr).any
        (fun text => !isBlank text) then
    { normalizer with sawVisibleText := true }
  else normalizer

/-- The call of a custom tool: its item id is noted, and a finished call
without an input gets the arguments streamed before. -/
def restoreCustomItem (index : Nat) (itemId : String) (item : Json) :
    ThirdPartySseNormalizer × Json :=
  let call := { (normalizer.customCalls.lookup index).getD {} with
    itemId := itemId }
  let noInput := ((item.get "input").bind Json.asStr).all (· = "")
  ({ normalizer with
      customCalls := (index, call) :: normalizer.customCalls },
    if event = "response.output_item.done" ∧ noInput = true ∧
        call.arguments ≠ "" then
      match item with
      | .obj fields => .obj (Json.insertField "input"
          (.str (customToolInput crates call.arguments)) fields)
      | _ => item
    else item)

/-- The item of an added or a finished event. -/
def restoreItemAt (index : Nat) (item : Json) :
    ThirdPartySseNormalizer × Json :=
  let noted :=
    if hasVisiblePart (item.get "content") then
      { normalizer with sawVisibleText := true }
    else normalizer
  let itemId := ((item.get "id").bind Json.asStr).getD ""
  let restored := noted.toolContext.restoreOutputItem crates item
  let result :=
    if noted.toolContext.restores item then
      if (restored.get "type").bind Json.asStr = some "tool_search_call" then
        ({ noted with toolSearchCalls := index :: noted.toolSearchCalls },
          restored)
      else restoreCustomItem crates noted event index itemId restored
    else (noted, restored)
  (result.1, normalizer.namespaceContext.restoreItem result.2)

def isItemEvent : Bool :=
  event = "response.output_item.added" || event = "response.output_item.done"

def restoreItem : ThirdPartySseNormalizer × Json :=
  match value.get "item" with
  | some item =>
    if isItemEvent event then
      let result := restoreItemAt crates normalizer event
        (outputIndex value) item
      (result.1, value.modify "item" fun _ => result.2)
    else (normalizer, value)
  | none => (normalizer, value)

def isArgumentsEvent : Bool :=
  event = "response.function_call_arguments.delta" ||
    event = "response.function_call_arguments.done"

/-- The arguments of a custom tool call: collected from the deltas, and given
out as the tool's input when they are done. -/
def customArguments (call : NativeCustomCall) :
    ThirdPartySseNormalizer × List Frame :=
  let index := outputIndex value
  if event = "response.function_call_arguments.delta" then
    match (value.get "delta").bind Json.asStr with
    | some delta =>
      ({ normalizer with
          customCalls := (index, { call with
            arguments := call.arguments ++ delta }) ::
              normalizer.customCalls }, [])
    | none => (normalizer, [])
  else
    let arguments := ((value.get "arguments").bind Json.asStr).getD
      call.arguments
    let input := customToolInput crates arguments
    ({ normalizer with
        customCalls := (index, { call with arguments := arguments }) ::
          normalizer.customCalls },
      (if input = "" then []
        else [.event "response.custom_tool_call_input.delta"
          (.obj [("type", .str "response.custom_tool_call_input.delta"),
            ("item_id", .str call.itemId), ("output_index", .nat index),
            ("delta", .str input)])]) ++
      [.event "response.custom_tool_call_input.done"
        (.obj [("type", .str "response.custom_tool_call_input.done"),
          ("item_id", .str call.itemId), ("output_index", .nat index),
          ("input", .str input)])])

/-- The phase of the messages of a turn. -/
def phase : String :=
  if normalizer.sawFunctionCall then "commentary" else "final_answer"

/-- The messages held back, with their phase. -/
def releasedMessages : List Frame :=
  normalizer.pendingMessageDone.map fun pending =>
    .event "response.output_item.done"
      (setItemPhase normalizer.phase pending)

/-- The summaries of a response's reasoning items. -/
def captureResponseReasoning (response : Json)
    (completed : List (String × Json)) : List (String × Json) :=
  (outputItems response).foldl (fun completed item =>
    if (item.get "type").bind Json.asStr = some "reasoning" then
      match (item.get "id").bind Json.asStr, item.get "summary" with
      | some id, some summary => (id, summary) :: completed
      | _, _ => completed
    else completed) completed

/-- What the completed response tells. -/
def noteResponse : ThirdPartySseNormalizer × Json :=
  match value.get "response" with
  | some response =>
    let restored := normalizer.namespaceContext.restoreResponse
      (normalizer.toolContext.restoreResponseTools crates response)
    ({ normalizer with
        completedReasoningSummaries := captureResponseReasoning response
          normalizer.completedReasoningSummaries
        sawVisibleText := normalizer.sawVisibleText ||
          responseContainsVisibleText restored
        sawFunctionCall := normalizer.sawFunctionCall ||
          responseContainsFunctionCall restored },
      value.modify "response" fun _ => restored)
  | none => (normalizer, value)

/-- The end of the turn: a turn with nothing to show has failed, and otherwise
the messages held back are released before the completion. -/
def complete : ThirdPartySseNormalizer × List Frame :=
  let noted := noteResponse crates normalizer value
  if !noted.1.sawVisibleText && !noted.1.sawFunctionCall then
    (noted.1, [failedSseEvent
      ("Upstream model ended with only a provider control token; " ++
        "retry the turn")])
  else
    ({ noted.1 with pendingMessageDone := [] },
      noted.1.releasedMessages ++
        [.event event (noted.2.modify "response"
          (assignResponseMessagePhasesWith noted.1.phase))])

def isMessageDone : Bool :=
  event = "response.output_item.done" &&
    (value.pointer ["item", "type"]).bind Json.asStr = some "message"

def noteCall : ThirdPartySseNormalizer :=
  if sseValueContainsFunctionCall value then
    { normalizer with sawFunctionCall := true }
  else normalizer

/-- An event that is not consumed as a part of a native tool call. -/
def forward : ThirdPartySseNormalizer × List Frame :=
  let noted := normalizer.noteCall value
  if isMessageDone event value then
    ({ noted with pendingMessageDone := noted.pendingMessageDone ++ [value] },
      [])
  else if event = "response.completed" then complete crates noted event value
  else (noted, [.event event value])

/-- The handlers behind the text filter. -/
def handleItem : ThirdPartySseNormalizer × List Frame :=
  let restored := restoreItem crates normalizer event value
  let index := outputIndex value
  if isArgumentsEvent event && index ∈ restored.1.toolSearchCalls then
    (restored.1, [])
  else
    match isArgumentsEvent event, restored.1.customCalls.lookup index with
    | true, some call =>
      customArguments crates restored.1 event restored.2 call
    | _, _ => forward crates restored.1 event restored.2

def handle : ThirdPartySseNormalizer × List Frame :=
  if event = "response.output_text.delta" then
    let filtered := normalizer.textDelta value
    if filtered.2 then
      handleItem crates (filtered.1.noteVisibleText event value) event value
    else (filtered.1, [])
  else
    handleItem crates (normalizer.noteVisibleText event value) event value

def pushBlock (block : List Char) :
    Except SseProtocolError (ThirdPartySseNormalizer × List Frame) :=
  match parseSseValue crates block with
  | none => .ok (normalizer, sanitizeUnparsedSseBlock block)
  | some (event, value) =>
    match validateKnownSseEvent event value with
    | .error error => .error error
    | .ok _ =>
      let accepted := normalizer.accept event value
      match accepted.2 with
      | none => .ok (accepted.1, [])
      | some value => .ok (handle crates accepted.1 event value)

def finish : ThirdPartySseNormalizer × List Frame :=
  ({ normalizer with pendingMessageDone := [] },
    normalizer.releasedMessages)

/-- Blocks in turn.  A block with a protocol error emits nothing and leaves
the normalizer as it was. -/
def pushBlocks (crates : Crates) (normalizer : ThirdPartySseNormalizer) :
    List (List Char) → ThirdPartySseNormalizer × List Frame
  | [] => (normalizer, [])
  | block :: blocks =>
    match normalizer.pushBlock crates block with
    | .ok pushed =>
      let rest := pushBlocks crates pushed.1 blocks
      (rest.1, pushed.2 ++ rest.2)
    | .error _ => pushBlocks crates normalizer blocks

/-- What the handlers before `forward` leave alone. -/
structure SameTurn (before after : ThirdPartySseNormalizer) : Prop where
  pending : after.pendingMessageDone = before.pendingMessageDone
  calls : after.sawFunctionCall = before.sawFunctionCall
  heuristics : after.payloadReplayHeuristics = before.payloadReplayHeuristics
  seen : after.seenSequenceNumbers = before.seenSequenceNumbers
  namespaces : after.namespaceContext = before.namespaceContext
  tools : after.toolContext = before.toolContext

namespace SameTurn

variable (normalizer : ThirdPartySseNormalizer)

theorem refl : SameTurn normalizer normalizer :=
  ⟨rfl, rfl, rfl, rfl, rfl, rfl⟩

theorem trans {first second third : ThirdPartySseNormalizer}
    (hfirst : SameTurn first second) (hsecond : SameTurn second third) :
    SameTurn first third :=
  ⟨hsecond.pending.trans hfirst.pending, hsecond.calls.trans hfirst.calls,
    hsecond.heuristics.trans hfirst.heuristics,
    hsecond.seen.trans hfirst.seen,
    hsecond.namespaces.trans hfirst.namespaces,
    hsecond.tools.trans hfirst.tools⟩

theorem recordSummary (event : String) (value : Json) :
    SameTurn normalizer (normalizer.recordSummary event value) := by
  rw [ThirdPartySseNormalizer.recordSummary]
  split
  · split <;> exact ⟨rfl, rfl, rfl, rfl, rfl, rfl⟩
  · exact refl normalizer

theorem textDelta (value : Json) :
    SameTurn normalizer (normalizer.textDelta value).1 := by
  simp only [ThirdPartySseNormalizer.textDelta]
  split
  · exact refl normalizer
  · split <;> exact ⟨rfl, rfl, rfl, rfl, rfl, rfl⟩

theorem noteVisibleText (event : String) (value : Json) :
    SameTurn normalizer (normalizer.noteVisibleText event value) := by
  rw [ThirdPartySseNormalizer.noteVisibleText]
  split <;> exact ⟨rfl, rfl, rfl, rfl, rfl, rfl⟩

theorem restoreItemAt (crates : Crates) (normalizer : ThirdPartySseNormalizer)
    (event : String) (index : Nat) (item : Json) :
    SameTurn normalizer (restoreItemAt crates normalizer event index item).1 := by
  simp only [ThirdPartySseNormalizer.restoreItemAt]
  split
  · split
    · split <;> exact ⟨rfl, rfl, rfl, rfl, rfl, rfl⟩
    · exact ⟨rfl, rfl, rfl, rfl, rfl, rfl⟩
  · split
    · split <;> exact ⟨rfl, rfl, rfl, rfl, rfl, rfl⟩
    · exact refl normalizer

theorem restoreItem (crates : Crates) (normalizer : ThirdPartySseNormalizer)
    (event : String) (value : Json) :
    SameTurn normalizer (restoreItem crates normalizer event value).1 := by
  rw [ThirdPartySseNormalizer.restoreItem]
  split
  · split
    · exact restoreItemAt ..
    · exact refl normalizer
  · exact refl normalizer

theorem customArguments (crates : Crates)
    (normalizer : ThirdPartySseNormalizer) (event : String) (value : Json)
    (call : NativeCustomCall) :
    SameTurn normalizer
      (customArguments crates normalizer event value call).1 := by
  simp only [ThirdPartySseNormalizer.customArguments]
  split
  · split
    · exact ⟨rfl, rfl, rfl, rfl, rfl, rfl⟩
    · exact refl normalizer
  · exact ⟨rfl, rfl, rfl, rfl, rfl, rfl⟩

end SameTurn

/-- The frames of a custom tool's input. -/
def IsCustomInput (frame : Frame) : Prop :=
  ∃ value, frame = .event "response.custom_tool_call_input.delta" value ∨
    frame = .event "response.custom_tool_call_input.done" value

variable (crates : Crates) (normalizer : ThirdPartySseNormalizer)
  (event : String) (value : Json)

theorem isCustomInput_customArguments (call : NativeCustomCall) :
    ∀ frame ∈ (customArguments crates normalizer event value call).2,
      IsCustomInput frame := by
  intro frame hframe
  simp only [customArguments] at hframe
  split at hframe
  · split at hframe <;> cases hframe
  · rcases mem_append.mp hframe with hframe | hframe
    · split at hframe
      · cases hframe
      · exact ⟨_, Or.inl (mem_singleton.mp hframe)⟩
    · exact ⟨_, Or.inr (mem_singleton.mp hframe)⟩

/-- An event that is taken up before `forward`. -/
structure Consumed (before : ThirdPartySseNormalizer)
    (result : ThirdPartySseNormalizer × List Frame) : Prop where
  same : SameTurn before result.1
  frames : ∀ frame ∈ result.2, IsCustomInput frame

/-- The handlers behind the text filter either take an arguments event up or
forward the event with its item restored. -/
theorem handleItem_cases :
    (isArgumentsEvent event = true ∧
      Consumed normalizer (handleItem crates normalizer event value)) ∨
    handleItem crates normalizer event value =
      forward crates (restoreItem crates normalizer event value).1 event
        (restoreItem crates normalizer event value).2 := by
  have hrestored := SameTurn.restoreItem crates normalizer event value
  simp only [handleItem]
  split
  · rename_i hsearch
    rw [Bool.and_eq_true] at hsearch
    exact Or.inl ⟨hsearch.1, hrestored, by rintro _ ⟨⟩⟩
  · split
    · rename_i hevent _
      exact Or.inl ⟨hevent,
        hrestored.trans (SameTurn.customArguments ..),
        isCustomInput_customArguments _ _ _ _ _⟩
    · exact Or.inr rfl

/-- An event that can be dropped or taken up before `forward`. -/
def isPartEvent (event : String) : Bool :=
  event = "response.output_text.delta" || isArgumentsEvent event

theorem handle_cases :
    (isPartEvent event = true ∧
      Consumed normalizer (handle crates normalizer event value)) ∨
    ∃ before, SameTurn normalizer before ∧
      handle crates normalizer event value =
        forward crates (restoreItem crates before event value).1 event
          (restoreItem crates before event value).2 := by
  have hitem (before : ThirdPartySseNormalizer)
      (hbefore : SameTurn normalizer before)
      (hhandle : handle crates normalizer event value =
        handleItem crates (before.noteVisibleText event value) event value) :
      (isPartEvent event = true ∧
        Consumed normalizer (handle crates normalizer event value)) ∨
      ∃ before, SameTurn normalizer before ∧
        handle crates normalizer event value =
          forward crates (restoreItem crates before event value).1 event
            (restoreItem crates before event value).2 := by
    have hnoted := hbefore.trans
      (SameTurn.noteVisibleText before event value)
    rw [hhandle]
    rcases handleItem_cases crates (before.noteVisibleText event value) event
      value with ⟨hevent, hconsumed⟩ | hforward
    · exact Or.inl ⟨by simp [isPartEvent, hevent],
        hnoted.trans hconsumed.same, hconsumed.frames⟩
    · exact Or.inr ⟨_, hnoted, hforward⟩
  by_cases hdelta : event = "response.output_text.delta"
  · by_cases hkept : (normalizer.textDelta value).2 = true
    · apply hitem _ (SameTurn.textDelta normalizer value)
      simp only [handle, if_pos hdelta, if_pos hkept]
    · refine Or.inl ⟨by simp [isPartEvent, hdelta], ?_⟩
      have hdropped : handle crates normalizer event value =
          ((normalizer.textDelta value).1, []) := by
        simp only [handle, if_pos hdelta, if_neg hkept]
      rw [hdropped]
      exact ⟨SameTurn.textDelta normalizer value,
        (by rintro _ ⟨⟩)⟩
  · apply hitem _ (SameTurn.refl normalizer)
    simp only [handle, if_neg hdelta]

/-- The three ways an event is forwarded: a finished message is held back, the
completion ends the turn, and any other event goes out. -/
theorem forward_cases :
    (isMessageDone event value = true ∧
      forward crates normalizer event value =
        ({ normalizer.noteCall value with
            pendingMessageDone :=
              (normalizer.noteCall value).pendingMessageDone ++ [value] },
          [])) ∨
    (isMessageDone event value = false ∧ event = "response.completed" ∧
      forward crates normalizer event value =
        complete crates (normalizer.noteCall value) event value) ∨
    (isMessageDone event value = false ∧ event ≠ "response.completed" ∧
      forward crates normalizer event value =
        (normalizer.noteCall value, [.event event value])) := by
  by_cases hmessage : isMessageDone event value = true
  · left
    simp only [forward, if_pos hmessage]
    exact ⟨hmessage, trivial⟩
  · right
    rw [Bool.not_eq_true] at hmessage
    by_cases hevent : event = "response.completed"
    · left
      refine ⟨hmessage, hevent, ?_⟩
      rw [forward, hmessage, if_neg Bool.false_ne_true, if_pos hevent]
    · right
      refine ⟨hmessage, hevent, ?_⟩
      rw [forward, hmessage, if_neg Bool.false_ne_true, if_neg hevent]

/-- The two ends of a turn. -/
theorem complete_cases :
    (∃ message, complete crates normalizer event value =
      ((noteResponse crates normalizer value).1, [failedSseEvent message])) ∨
    ∃ completed, complete crates normalizer event value =
      ({ (noteResponse crates normalizer value).1 with
          pendingMessageDone := [] },
        (noteResponse crates normalizer value).1.releasedMessages ++
          [.event event completed]) := by
  simp only [complete]
  split
  · exact Or.inl ⟨_, rfl⟩
  · exact Or.inr ⟨_, rfl⟩

theorem forward_settings :
    (forward crates normalizer event value).1.payloadReplayHeuristics =
        normalizer.payloadReplayHeuristics ∧
      (forward crates normalizer event value).1.seenSequenceNumbers =
        normalizer.seenSequenceNumbers := by
  simp only [forward, complete, noteResponse, noteCall]
  repeat' split
  all_goals exact ⟨rfl, rfl⟩

theorem handle_settings :
    (handle crates normalizer event value).1.payloadReplayHeuristics =
        normalizer.payloadReplayHeuristics ∧
      (handle crates normalizer event value).1.seenSequenceNumbers =
        normalizer.seenSequenceNumbers := by
  rcases handle_cases crates normalizer event value with
    ⟨-, hconsumed⟩ | ⟨before, hbefore, hforward⟩
  · exact ⟨hconsumed.same.heuristics, hconsumed.same.seen⟩
  · have hrestored := hbefore.trans
      (SameTurn.restoreItem crates before event value)
    have hsettings := forward_settings crates
      (restoreItem crates before event value).1 event
      (restoreItem crates before event value).2
    rw [hforward]
    exact ⟨hsettings.1.trans hrestored.heuristics,
      hsettings.2.trans hrestored.seen⟩

/-- An event as it is parsed off a block. -/
abbrev Upstream := String × Json

theorem get_dropDoomLoopCheck {key : String} (hkey : key ≠ "response")
    (value : Json) : (dropDoomLoopCheck value).get key = value.get key := by
  rw [dropDoomLoopCheck, Json.get_modify, if_neg hkey]

/-- The pair a numbered event is known by. -/
def identity (event : String) (value : Json) : Option (String × Nat) :=
  (sequenceNumber value).map fun sequence => (event, sequence)

/-- The normalizer once an accepted event has been noted. -/
structure Accepted (before after : ThirdPartySseNormalizer)
    (event : String) (value : Json) : Prop where
  pending : after.pendingMessageDone = before.pendingMessageDone
  calls : after.sawFunctionCall = before.sawFunctionCall
  heuristics : after.payloadReplayHeuristics = before.payloadReplayHeuristics
  seen : after.seenSequenceNumbers =
    (identity event value).toList ++ before.seenSequenceNumbers

/-- A private event and a replayed one are not handled; any other is, once it
has been cleaned. -/
theorem accept_cases :
    ((isDoomLoopCheck event value = true ∨
        ∃ pair ∈ normalizer.seenSequenceNumbers,
          identity event value = some pair) ∧
      SameTurn normalizer (normalizer.accept event value).1 ∧
      (normalizer.accept event value).2 = none) ∨
    (isDoomLoopCheck event value = false ∧
      (∀ pair ∈ normalizer.seenSequenceNumbers,
        identity event value ≠ some pair) ∧
      Accepted normalizer (normalizer.accept event value).1 event value ∧
      (normalizer.accept event value).2 =
        some (cleaned normalizer.payloadReplayHeuristics value)) := by
  have hcaptured : SameTurn normalizer
      (normalizer.captureGrokDoomLoopTriggers value) :=
    ⟨rfl, rfl, rfl, rfl, rfl, rfl⟩
  by_cases hdoom : isDoomLoopCheck event value = true
  · have haccept : normalizer.accept event value =
        (normalizer.captureGrokDoomLoopTriggers value, none) := by
      simp only [accept, if_pos hdoom]
    rw [haccept]
    exact Or.inl ⟨Or.inl hdoom, hcaptured, rfl⟩
  · by_cases hseen : ∃ pair ∈ normalizer.seenSequenceNumbers,
        identity event value = some pair
    · obtain ⟨pair, hpair, hidentity⟩ := hseen
      obtain ⟨sequence, hsequence, rfl⟩ := Option.map_eq_some_iff.mp hidentity
      have haccept : normalizer.accept event value =
          (normalizer.captureGrokDoomLoopTriggers value, none) := by
        simp only [accept, if_neg hdoom, hsequence]
        exact if_pos hpair
      rw [haccept]
      exact Or.inl ⟨Or.inr ⟨_, hpair, hidentity⟩, hcaptured, rfl⟩
    · have haccept : normalizer.accept event value =
          clean { normalizer.captureGrokDoomLoopTriggers value with
            seenSequenceNumbers := (identity event value).toList ++
              normalizer.seenSequenceNumbers } event value := by
        cases hsequence : sequenceNumber value with
        | none =>
          simp only [accept, if_neg hdoom, hsequence, identity]
          rfl
        | some sequence =>
          have hfresh : (event, sequence) ∉
              normalizer.seenSequenceNumbers := by
            intro hpair
            exact hseen ⟨_, hpair, by rw [identity, hsequence]; rfl⟩
          simp only [accept, if_neg hdoom, hsequence, identity]
          exact if_neg hfresh
      have hrecorded := SameTurn.recordSummary
        { normalizer.captureGrokDoomLoopTriggers value with
          seenSequenceNumbers := (identity event value).toList ++
            normalizer.seenSequenceNumbers } event
        (normalizeReadableReasoning (dropDoomLoopCheck value))
      rw [haccept]
      refine Or.inr ⟨Bool.not_eq_true _ ▸ hdoom, ?_, ?_, rfl⟩
      · intro pair hpair hidentity
        exact hseen ⟨pair, hpair, hidentity⟩
      · exact ⟨hrecorded.pending, hrecorded.calls, hrecorded.heuristics,
          hrecorded.seen⟩

end ThirdPartySseNormalizer

end Vellum.Proxy
