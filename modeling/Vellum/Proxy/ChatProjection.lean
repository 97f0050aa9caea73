/-
The messages of a Chat request
(`vellum-proxy-runtime/src/profile_adapter.rs` and `replay.rs`).  The input
items are projected to messages, assistant messages next to each other are
merged, calls without a result are left out, the system messages are gathered
at the head, and the transcript is checked.
-/
import Vellum.Proxy.CodexLocalCompact
import Vellum.Proxy.PortableItems
import Vellum.Proxy.ReplayHydration

namespace Vellum.Proxy

inductive ContinuationTail where
  | nativeToolResult
  | neutralUserBridge
deriving DecidableEq

inductive ReasoningReplay where
  | none
  | toolCallBound
deriving DecidableEq

structure RuntimeChatCapabilities where
  continuationTail : ContinuationTail := .nativeToolResult
  reasoningReplay : ReasoningReplay := .none

structure ReplayContext where
  prefixLen : Nat := 0
  suffixStart : Nat := 0
  suffixEnd : Nat := 2 ^ 64 - 1
  overlapSkipped : Nat := 0
  allowReasoningReplay : Bool := true
  compactionRepairs : Nat := 0
  sameRoute : Bool := true
  itemIdentities : List String := []

/-- Where a message comes from; it never leaves the proxy. -/
structure ChatMessageProvenance where
  occurrenceId : Option String := none
  fromPrefix : Bool := false
deriving DecidableEq

/-- The provenance of a message that no item stands behind. -/
def ChatMessageProvenance.synthetic : ChatMessageProvenance := {}

def ReplayContext.provenanceForItem (replay : ReplayContext) (index : Nat) :
    ChatMessageProvenance where
  occurrenceId :=
    some (replay.itemIdentities[index]?.getD (requestItemIdentity index))
  fromPrefix := index < replay.prefixLen

def shouldReplayReasoning (capabilities : RuntimeChatCapabilities)
    (replay : ReplayContext) : Bool :=
  capabilities.reasoningReplay = .toolCallBound &&
    replay.allowReasoningReplay && replay.sameRoute

/-! The texts of the projection. -/

def neutralUserBridgeText : String :=
  "Continue from the previous tool result. The original user task has not " ++
  "been resent or changed."

def chatCheckpointPreface : String :=
  "Conversation checkpoint; not a new user request"

def chatCheckpointResumeText : String :=
  "Continue the task described in the conversation checkpoint above, " ++
  "starting from where it stopped. The checkpoint is context, not a new " ++
  "user request, and the original user task has not been resent or changed."

/-- Two texts with a blank line between them; a blank first one is left out. -/
def joinTexts (existing incoming : String) : String :=
  if isBlank existing then incoming
  else
    String.ofList (Text.trimEnd existing.toList ++ "\n\n".toList ++
      Text.trimStart incoming.toList)

/-! Messages. -/

/-- A call of an assistant message. -/
structure ToolCall where
  id : Json
  name : Json
  arguments : String

def ToolCall.toJson (call : ToolCall) : Json :=
  .obj [("id", call.id), ("type", .str "function"),
    ("function", .obj [("name", call.name),
      ("arguments", .str call.arguments)])]

/-- The messages that the projection builds.  A `tool` message that stands for
a message item has no call id. -/
inductive TranscriptMessage where
  | system (content : Json)
  | user (content : Json)
  | tool (callId : Option String) (content : Json)
  | assistant (content : String) (calls : List ToolCall)
      (reasoning : Option String)

namespace TranscriptMessage

def role : TranscriptMessage → String
  | system _ => "system"
  | user _ => "user"
  | tool .. => "tool"
  | assistant .. => "assistant"

def content : TranscriptMessage → Json
  | system content | user content | tool _ content => content
  | assistant content .. => .str content

def calls : TranscriptMessage → List ToolCall
  | assistant _ calls _ => calls
  | _ => []

def plainText (crates : Crates) (message : TranscriptMessage) : String :=
  contentToPlainString crates message.content

def isAssistant : TranscriptMessage → Bool
  | assistant .. => true
  | _ => false

def isTool : TranscriptMessage → Bool
  | tool .. => true
  | _ => false

def isSystem : TranscriptMessage → Bool
  | system _ => true
  | _ => false

def isUser : TranscriptMessage → Bool
  | user _ => true
  | _ => false

/-- The message on the wire. -/
def toJson : TranscriptMessage → Json
  | system content => .obj [("role", .str "system"), ("content", content)]
  | user content => .obj [("role", .str "user"), ("content", content)]
  | tool callId content =>
    .obj ([("role", .str "tool")] ++
      (callId.map fun id => ("tool_call_id", .str id)).toList ++
      [("content", content)])
  | assistant content calls reasoning =>
    .obj ([("role", .str "assistant"), ("content", .str content)] ++
      (if calls.isEmpty then []
        else [("tool_calls", .arr (calls.map ToolCall.toJson))]) ++
      (reasoning.map fun text => ("reasoning_content", .str text)).toList)

end TranscriptMessage

/-- Messages, each with its provenance. -/
abbrev ChatProjection := List (TranscriptMessage × ChatMessageProvenance)

/-! Projection of the items. -/

def isCanonicalCheckpointItem (item : Json) : Bool :=
  ((item.get "metadata").bind (Json.get "vellum_checkpoint")).bind
      Json.asStr = some "canonical" ||
    isSummaryItem item ||
    itemType item = some "compaction" ||
    itemType item = some "context_compaction"

def isToolOutputItem (item : Json) : Bool :=
  match itemType item with
  | some kind => kind ∈ ["function_call_output", "custom_tool_call_output",
      "tool_search_output"]
  | none => false

def chatToolCallValue (crates : Crates) (item : Json) : ToolCall where
  id := ((item.get "call_id").or (item.get "id")).getD (.str "call")
  name := (item.get "name").getD (.str "unknown")
  arguments :=
    if itemType item = some "custom_tool_call" then
      customToolArguments crates (((item.get "name").bind Json.asStr).getD "")
        ((item.get "input").getD (.str ""))
    else ((item.get "arguments").bind Json.asStr).getD "\x7b\x7d"

def reasoningSummaryText (item : Json) : Option String :=
  let summary := ((item.get "summary").bind Json.asArr).map fun parts =>
    "\n".intercalate ((parts.filterMap fun part =>
      (part.get "text").bind Json.asStr).filter fun text => !isBlank text)
  let visible (text : Option String) :=
    text.filter fun text => !isBlank text
  (visible summary).or (visible ((item.get "content").bind Json.asStr))

def isImagePart (part : Json) : Bool :=
  itemType part = some "input_image" || itemType part = some "image"

def responsesImageUrl (part : Json) : Option String :=
  let url := match part.get "image_url" with
    | some (.str url) => some url
    | some (.obj fields) => ((Json.obj fields).get "url").bind Json.asStr
    | _ => none
  url.filter fun url => !isBlank url

/-- An image of a message, unless it has no address to fetch it from. -/
def chatImage (part : Json) : Option Json :=
  (responsesImageUrl part).map fun url =>
    let detail := (part.get "detail").bind Json.asStr
    .obj [("type", .str "image_url"), ("image_url", .obj
      ([("url", .str url)] ++
        (detail.map fun detail => ("detail", .str detail)).toList))]

def chatText (text : String) : Json :=
  .obj [("type", .str "text"), ("text", .str text)]

/-- The content of a user message keeps its images. -/
def contentToChatMessageContent (crates : Crates) (value : Json) : Json :=
  match value with
  | .arr parts =>
    if parts.any fun part => isImagePart part && (chatImage part).isSome then
      .arr (parts.filterMap fun part =>
        if isImagePart part then chatImage part
        else ((contentPartText part).filter (· ≠ "")).map chatText)
    else contentToText crates value
  | _ => contentToText crates value

/-- The text of a tool result and the images it carries. -/
def chatToolOutput (crates : Crates) (output : Json) (callId : String)
    (vision : Bool) : Except String (String × List Json) :=
  match output with
  | .arr parts =>
    let images := (parts.filter isImagePart).filterMap chatImage
    let texts := ((parts.filter (!isImagePart ·)).map
      (contentToPlainString crates)).filter fun text => !isBlank text
    if !images.isEmpty && !vision then
      .error ("tool `" ++ callId ++ "` returned image content, but the " ++
        "selected Chat route does not declare vision support")
    else
      let lines := texts ++
        (if images.isEmpty then []
          else ["[Tool `" ++ callId ++ "` returned " ++
            toString images.length ++ " image(s); image content follows.]"])
      .ok
        (if lines.isEmpty then "[Tool completed without textual output.]"
          else "\n".intercalate lines,
          images)
  | _ => .ok (contentToPlainString crates output, [])

/-- The assistant's turn that is being gathered. -/
structure AssistantTurnAcc where
  content : String := ""
  reasoning : String := ""
  calls : List ToolCall := []
  provenance : ChatMessageProvenance

structure ProjectionState where
  projection : ChatProjection := []
  turn : Option AssistantTurnAcc := none
  pendingToolImages : List Json := []

/-- The message of a turn.  Reasoning alone is no turn. -/
def AssistantTurnAcc.message (turn : AssistantTurnAcc)
    (replayReasoning : Bool) : Option TranscriptMessage :=
  if turn.calls.isEmpty && isBlank turn.content then none
  else
    some (.assistant (if isBlank turn.content then "" else turn.content)
      turn.calls
      (if replayReasoning && !isBlank turn.reasoning then some turn.reasoning
        else none))

namespace ProjectionState

def push (state : ProjectionState) (message : TranscriptMessage)
    (provenance : ChatMessageProvenance) : ProjectionState :=
  { state with projection := state.projection ++ [(message, provenance)] }

def flushAssistantTurn (replayReasoning : Bool) (state : ProjectionState) :
    ProjectionState :=
  match state.turn with
  | none => state
  | some turn =>
    let closed := { state with turn := none }
    match turn.message replayReasoning with
    | none => closed
    | some message => closed.push message turn.provenance

def flushChatToolImages (state : ProjectionState) : ProjectionState :=
  if state.pendingToolImages.isEmpty then state
  else
    { state with pendingToolImages := [] }.push
      (.user (.arr (chatText
        "Image content returned by the preceding tool call(s)." ::
          state.pendingToolImages))) .synthetic

/-- Add to the turn, which starts with the item if there is none. -/
def extendTurn (state : ProjectionState) (provenance : ChatMessageProvenance)
    (extend : AssistantTurnAcc → AssistantTurnAcc) : ProjectionState :=
  { state with turn := some (extend (state.turn.getD { provenance })) }

end ProjectionState

variable (crates : Crates) (projection : ChatProjection)

/-- The message a message item stands for, apart from the assistant's. -/
def plainMessage (role : String) (item : Json) : Option TranscriptMessage :=
  let source := (item.get "content").getD item
  if role = "system" ∨ role = "developer" then
    some (.system (contentToText crates source))
  else if role = "user" then
    some (.user (contentToChatMessageContent crates source))
  else if role = "tool" then some (.tool none (contentToText crates source))
  else none

/-- What one item adds to the projection. -/
def projectItem (replayReasoning vision : Bool) (state : ProjectionState)
    (item : Json) (provenance : ChatMessageProvenance) :
    Except String ProjectionState :=
  let state := if isToolOutputItem item then state
    else state.flushChatToolImages
  let kind := itemType item
  if (isCanonicalCheckpointItem item && kind ≠ some "compaction" &&
      kind ≠ some "context_compaction") || isSummaryItem item then
    let text := ((item.get "content").map (contentToPlainString crates)).getD ""
    .ok ((state.flushAssistantTurn replayReasoning).push
      (.assistant (chatCheckpointPreface ++ "\n\n" ++ text) [] none) provenance)
  else if kind = some "compaction" ∨ kind = some "context_compaction" ∨
      kind = some "compaction_trigger" then .ok state
  else if kind = some "function_call" ∨ kind = some "custom_tool_call" then
    .ok (state.extendTurn provenance fun turn =>
      { turn with calls := turn.calls ++ [chatToolCallValue crates item] })
  else if isToolOutputItem item then
    let callId := ((item.get "call_id").bind Json.asStr).getD "call"
    (chatToolOutput crates ((item.get "output").getD .null) callId vision).map
      fun (content, images) =>
        let pushed := (state.flushAssistantTurn replayReasoning).push
          (.tool (some callId) (.str content)) provenance
        { pushed with
          pendingToolImages := pushed.pendingToolImages ++ images }
  else if kind = some "reasoning" then
    match reasoningSummaryText item with
    | some summary =>
      .ok (if replayReasoning then
        state.extendTurn provenance fun turn =>
          { turn with
            reasoning :=
              if isBlank turn.reasoning then summary
              else String.ofList (Text.trimEnd turn.reasoning.toList) ++
                "\n\n" ++ summary }
        else state)
    | none => .ok state
  else
    let role := ((item.get "role").bind Json.asStr).getD "user"
    if role = "assistant" then
      let text := contentToPlainString crates
        (contentToText crates ((item.get "content").getD item))
      .ok (state.extendTurn provenance fun turn =>
        { turn with
          content :=
            if isBlank text then turn.content
            else joinTexts turn.content text })
    else
      match plainMessage crates role item with
      | some message =>
        .ok ((state.flushAssistantTurn replayReasoning).push message
          provenance)
      | none => .ok state

/-- The items one after another. -/
def projectItems (crates : Crates) (replayReasoning vision : Bool) :
    ProjectionState → List (Json × ChatMessageProvenance) →
      Except String ProjectionState
  | state, [] => .ok state
  | state, (item, provenance) :: rest => do
      let next ← projectItem crates replayReasoning vision state item provenance
      projectItems crates replayReasoning vision next rest

/-- The projection with the messages of the items behind it. -/
def projectChatItems (items : List (Json × ChatMessageProvenance))
    (replayReasoning vision : Bool) : Except String ChatProjection :=
  (projectItems crates replayReasoning vision { projection } items).map
    fun state =>
      ((state.flushAssistantTurn replayReasoning).flushChatToolImages).projection

/-! Merging assistant messages. -/

/-- A text field of two merged messages. -/
def mergeText (target incoming : String) : String :=
  if isBlank incoming then target else joinTexts target incoming

/-- The calls of two merged messages; an id stands once. -/
def mergeCalls (target incoming : List ToolCall) : List ToolCall :=
  incoming.foldl
    (fun calls call =>
      if call.id.asStr.isSome && calls.any fun known =>
          known.id.asStr = call.id.asStr then calls
      else calls ++ [call])
    target

/-- `merge_chat_assistant_message`. -/
def mergeChatAssistantMessage :
    TranscriptMessage → TranscriptMessage → TranscriptMessage
  | .assistant content calls reasoning, .assistant content' calls' reasoning' =>
    .assistant (mergeText content content') (mergeCalls calls calls')
      (match reasoning' with
        | some incoming =>
          if isBlank incoming then reasoning
          else some (joinTexts (reasoning.getD "") incoming)
        | none => reasoning)
  | target, _ => target

/-- Push a message; an assistant message behind an assistant message becomes
part of it and of its provenance. -/
def coalescePush (result : ChatProjection)
    (pair : TranscriptMessage × ChatMessageProvenance) : ChatProjection :=
  match result.getLast? with
  | some (previous, provenance) =>
    if previous.isAssistant && pair.1.isAssistant then
      result.dropLast ++
        [(mergeChatAssistantMessage previous pair.1, provenance)]
    else result ++ [pair]
  | none => [pair]

def coalesceAdjacentChatAssistantMessages : ChatProjection :=
  projection.foldl coalescePush []

/-! Calls without a result. -/

/-- The call ids that the tool messages at the head answer. -/
def answeredIds : ChatProjection → List String
  | (.tool (some id) _, _) :: rest => id :: answeredIds rest
  | (.tool none _, _) :: rest => answeredIds rest
  | _ => []

/-- Each call needs an id of its own. -/
def checkCallIds : List String → List ToolCall → Except String Unit
  | _, [] => .ok ()
  | seen, call :: rest =>
    match call.id.asStr with
    | none => .error "chat tool pairing: tool call missing id"
    | some id =>
      if id ∈ seen then
        .error ("chat tool pairing: duplicate tool call id `" ++ id ++ "`")
      else checkCallIds (id :: seen) rest

/-- Whether a call is answered. -/
def ToolCall.isAnswered (answered : List String) (call : ToolCall) : Bool :=
  call.id.asStr.any fun id => id ∈ answered

/-- The message with the calls that are answered; without one it keeps its
text only. -/
def reconciledMessage (content : String) (calls : List ToolCall)
    (reasoning : Option String) : Option TranscriptMessage :=
  if calls.isEmpty then
    if isBlank content then none else some (.assistant content [] none)
  else some (.assistant content calls reasoning)

/-- `reconcile_partial_chat_tool_continuations`.  Behind a message with calls,
`retained` holds the ids of those that were kept, and the tool messages that
follow at once are kept for these only. -/
def reconcileFrom : Option (List String) → ChatProjection →
    Except String ChatProjection
  | _, [] => .ok []
  | retained, (message, provenance) :: rest =>
    match message with
    | .assistant content calls reasoning =>
      if calls.isEmpty then
        (reconcileFrom none rest).map ((message, provenance) :: ·)
      else do
        checkCallIds [] calls
        let kept := calls.filter (ToolCall.isAnswered (answeredIds rest))
        let reconciled ← reconcileFrom
          (some (kept.filterMap fun call => call.id.asStr)) rest
        return ((reconciledMessage content kept reasoning).map
          fun message => (message, provenance)).toList ++ reconciled
    | .tool callId _ =>
      (reconcileFrom retained rest).map
        (if retained.all fun ids => callId.any fun id => id ∈ ids then
          ((message, provenance) :: ·) else id)
    | _ => (reconcileFrom none rest).map ((message, provenance) :: ·)

def reconcilePartialChatToolContinuations : Except String ChatProjection :=
  reconcileFrom none projection

/-! System messages. -/

/-- The text of a system message, if there is any. -/
def systemText : TranscriptMessage → Option String
  | .system content =>
    some (((contentToText crates content).asStr).getD "") |>.filter
      fun text => !isBlank text
  | _ => none

def collapseSystemMessagesToHead : ChatProjection :=
  let rest := projection.filter fun pair => !pair.1.isSystem
  let system := projection.filterMap fun pair =>
    (systemText crates pair.1).map fun text => (text, pair.2)
  match system with
  | [] => rest
  | (_, provenance) :: _ =>
    (.system (.str ("\n\n".intercalate (system.map Prod.fst))), provenance) ::
      rest

/-! The tail of the transcript. -/

def isSyntheticBridgeText (text : String) : Bool :=
  Text.trim text.toList = neutralUserBridgeText.toList

def isCheckpointResumeText (text : String) : Bool :=
  Text.trim text.toList = chatCheckpointResumeText.toList

def isChatCheckpointMessage (message : TranscriptMessage) : Bool :=
  message.isAssistant &&
    startsWith (message.plainText crates) chatCheckpointPreface

/-- A bridge to the next turn of the assistant. -/
def isBridge (message : TranscriptMessage) : Bool :=
  message.isUser && isSyntheticBridgeText (message.plainText crates)

def lastSemanticMessage : Option TranscriptMessage :=
  ((projection.map Prod.fst).filter fun message => !message.isSystem).getLast?

variable (messages : List TranscriptMessage)
  (capabilities : RuntimeChatCapabilities)

def applyNeutralUserBridge (projection : ChatProjection) : ChatProjection :=
  if capabilities.continuationTail ≠ .neutralUserBridge ||
      projection.any fun pair => isBridge crates pair.1 then projection
  else if (lastSemanticMessage projection).any TranscriptMessage.isTool then
    projection ++ [(.user (.str neutralUserBridgeText),
      { occurrenceId := some "synthetic:bridge" })]
  else projection

def applyCheckpointResumeTail : ChatProjection :=
  if projection.any fun pair => pair.1.isUser &&
      isCheckpointResumeText (pair.1.plainText crates) then projection
  else if (lastSemanticMessage projection).any
      (isChatCheckpointMessage crates) then
    projection ++ [(.user (.str chatCheckpointResumeText),
      { occurrenceId := some "synthetic:checkpoint-resume" })]
  else projection

/-! The checks of a transcript. -/

def messageHasSemanticContent : TranscriptMessage → Bool
  | .assistant content calls reasoning =>
    !isBlank content || reasoning.any (fun text => !isBlank text) ||
      !calls.isEmpty
  | message => !isBlank (message.plainText crates)

def checkChatMessageShape : Except String Unit :=
  if messages.isEmpty then .error "chat shape: messages must not be empty"
  else if !messages.any fun message => message.isUser || message.isTool then
    .error ("chat shape: messages must contain at least one semantic user or " ++
      "tool turn; system-only payloads are rejected")
  else
    match messages.findIdx? fun message => message.isAssistant &&
        !messageHasSemanticContent crates message with
    | some index =>
      .error ("chat shape: empty assistant message at index " ++
        toString index)
    | none => .ok ()

/-- Open the calls of an assistant message. -/
def openCalls : List String → List String → List ToolCall →
    Except String (List String × List String)
  | opened, seen, [] => .ok (opened, seen)
  | opened, seen, call :: rest =>
    match call.id.asStr with
    | none => .error "chat tool pairing: tool call missing id"
    | some id =>
      if id ∈ seen then
        .error ("chat tool pairing: duplicate tool call id `" ++ id ++ "`")
      else openCalls (opened ++ [id]) (id :: seen) rest

/-- The rest of a transcript, with the calls that are open and the ids that
were seen. -/
def checkPairingFrom : List String → List String → Nat →
    List TranscriptMessage → Except String Unit
  | opened, _, _, [] =>
    if opened.isEmpty then .ok ()
    else
      .error ("chat tool pairing: unresolved tool calls remain: " ++
        ",".intercalate opened)
  | opened, seen, index, message :: rest =>
    match message with
    | .assistant _ calls _ =>
      if calls.isEmpty then checkPairingFrom opened seen (index + 1) rest
      else if !opened.isEmpty then
        .error ("chat tool pairing: assistant tool calls at message " ++
          toString index ++ " arrived before previous calls were closed")
      else do
        let (opened, seen) ← openCalls opened seen calls
        checkPairingFrom opened seen (index + 1) rest
    | .tool callId _ =>
      match callId with
      | none =>
        .error ("chat tool pairing: tool message at " ++
          toString index ++ " missing tool_call_id")
      | some id =>
        if id ∈ opened then
          checkPairingFrom (opened.erase id) seen (index + 1) rest
        else
          .error ("chat tool pairing: orphan tool result for `" ++ id ++
            "` at message " ++ toString index)
    | _ =>
      if opened.isEmpty then checkPairingFrom opened seen (index + 1) rest
      else
        .error ("chat tool pairing: non-tool message at " ++
          toString index ++ " interrupted open tool calls")

def checkToolPairing : Except String Unit :=
  checkPairingFrom [] [] 0 messages

/-- The occurrences of the user's own messages. -/
def activeUserOccurrences : List String :=
  projection.filterMap fun pair =>
    let text := pair.1.plainText crates
    if pair.1.isUser && !isSyntheticBridgeText text &&
        !startsWith text chatCheckpointPreface then pair.2.occurrenceId
    else none

/-- The first entry that occurred before. -/
def firstRepeated : List String → List String → Option String
  | _, [] => none
  | seen, id :: rest =>
    if id ∈ seen then some id else firstRepeated (id :: seen) rest

def checkDuplicateActiveUserOccurrences : Except String Unit :=
  match firstRepeated [] (activeUserOccurrences crates projection) with
  | some id =>
    .error ("chat transcript: the same active user occurrence `" ++ id ++
      "` was serialized twice")
  | none => .ok ()

def isActiveCheckpoint (message : TranscriptMessage) : Bool :=
  let text := message.plainText crates
  startsWith text chatCheckpointPreface || startsWith text officialSummaryPrefix

def checkActiveCheckpointCount : Except String Unit :=
  let checkpoints := messages.countP (isActiveCheckpoint crates)
  if 1 < checkpoints then
    .error ("chat transcript: expected at most one active checkpoint, found " ++
      toString checkpoints)
  else .ok ()

def checkCheckpointIsNotTheTail : Except String Unit :=
  if (lastSemanticMessage projection).any (isChatCheckpointMessage crates) then
    .error ("chat transcript: a conversation checkpoint must not be the last " ++
      "message")
  else .ok ()

def checkUnauthorizedBridge : Except String Unit :=
  let bridges := messages.countP (isBridge crates)
  if bridges = 0 then .ok ()
  else if capabilities.continuationTail ≠ .neutralUserBridge then
    .error ("chat transcript: unauthorized neutral user bridge on a " ++
      "native-tool-result route")
  else if 1 < bridges then
    .error "chat transcript: more than one neutral user bridge"
  else .ok ()

def checkChatTranscriptInvariants : Except String Unit := do
  let messages := projection.map Prod.fst
  checkChatMessageShape crates messages
  checkToolPairing messages
  checkDuplicateActiveUserOccurrences crates projection
  checkActiveCheckpointCount crates messages
  checkCheckpointIsNotTheTail crates projection
  checkUnauthorizedBridge crates messages capabilities

end Vellum.Proxy
