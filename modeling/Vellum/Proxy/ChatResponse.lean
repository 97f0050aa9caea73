/-
The non-streaming Chat translation (`vellum-proxy-runtime/src/adapter.rs`,
`chat_response_to_responses_with_context`): a whole Chat completion in, a
Responses object out.  Namespaces are restored by its caller
(`normalize_non_streaming_response`), with `restore_response`.
-/
import Vellum.Proxy.ChatStream

namespace Vellum.Proxy

/-- The text of one content part, under either of its names. -/
def contentPartText (part : Json) : Option String :=
  ((part.get "text").bind Json.asStr).or ((part.get "content").bind Json.asStr)

variable (crates : Crates) (responseId : String)

def contentToText : Json → Json
  | .str text => .str text
  | .arr parts => .str ("\n".intercalate (parts.filterMap contentPartText))
  | .obj fields =>
    ((Json.obj fields).get "text").getD (.str (crates.toStr (.obj fields)))
  | value => .str (crates.toStr value)

def contentToPlainString (value : Json) : String :=
  match contentToText crates value with
  | .str text => text
  | other => crates.toStr other

/-- The item of one complete tool call, before it is restored. -/
def wholeCallItem (call : Json) : Json :=
  let callId := (((call.get "id").bind Json.asStr).filter
    (fun id => !isBlank id)).getD "call"
  .obj [("type", .str "function_call"),
    ("id", .str (normalizedItemId crates "fc_" callId)),
    ("call_id", .str callId),
    ("name", (call.pointer ["function", "name"]).getD (.str "unknown")),
    ("arguments", .str (toolArgumentsText crates
      (call.pointer ["function", "arguments"]))),
    ("status", .str "completed")]

/-- The tool calls of a message. -/
def messageCalls (message : Json) : List Json :=
  ((message.get "tool_calls").bind Json.asArr).getD []

def reasoningOutput (message : Json) : List Json :=
  match chatReasoningText message with
  | some reasoning =>
    [reasoningItem (responseId ++ "_reasoning")
      [StreamEvent.summaryPart reasoning]]
  | none => []

def messageOutput (message : Json) : List Json :=
  match (message.get "content").filter (· ≠ .null) with
  | some content =>
    let text := String.ofList
      (sanitizeModelContent (contentToPlainString crates content).toList)
    if text = "" then []
    else
      [completedMessageItem (responseId ++ "_message")
        (if (messageCalls message).isEmpty then "final_answer"
          else "commentary") text]
  | none => []

/-- An item a turn may end on. -/
def isActionable (item : Json) : Bool :=
  match (item.get "type").bind Json.asStr with
  | some kind =>
    kind = "message" || kind = "function_call" ||
      kind = "custom_tool_call" || kind = "tool_search_call"
  | none => false

/-- The output items of a whole message. -/
def wholeOutput (context : CodexToolContext) (responseId : String)
    (message : Json) : List Json :=
  reasoningOutput responseId message ++
    messageOutput crates responseId message ++
    (messageCalls message).map fun call =>
      context.restoreOutputItem crates (wholeCallItem crates call)

/-- The response around the output items: without an item to act on it is a
failure. -/
def wholeResponse (body : Json) (model responseId : String)
    (output : List Json) : Json :=
  let head := [("id", Json.str responseId), ("object", .str "response"),
    ("created_at", (body.get "created").getD (.nat 0))]
  withUsage (normalizedUsage (body.get "usage"))
    (if output.any isActionable then
      head ++ [("status", .str "completed"), ("model", .str model),
        ("output", .arr output), ("store", .bool false)]
    else
      head ++ [("status", .str "failed"), ("model", .str model),
        ("output", .arr output), ("error", emptyCompletion),
        ("store", .bool false)])

def chatResponseToResponsesWithContext (body : Json) (model : String)
    (context : CodexToolContext) : Except String Json :=
  match ((body.get "choices").bind Json.asArr).bind List.head? with
  | none => .error "Chat 回應沒有 choices[0]"
  | some choice =>
    match choice.get "message" with
    | none => .error "Chat 回應沒有 message"
    | some message =>
      let responseId :=
        ((body.get "id").bind Json.asStr).getD "resp_vellum"
      .ok (wholeResponse body model responseId
        (wholeOutput crates context responseId message))

/-- Restore every namespaced call of a response. -/
def NamespaceToolContext.restoreResponse (context : NamespaceToolContext)
    (response : Json) : Json :=
  match response with
  | .obj fields =>
    match (response.get "output").bind Json.asArr with
    | some output =>
      .obj (Json.insertField "output" (.arr (output.map context.restoreItem))
        fields)
    | none => response
  | _ => response

end Vellum.Proxy
