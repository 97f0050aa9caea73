/-
The two Chat translations side by side: the chunks of a message pushed into
the streaming adapter, and the message translated as a whole.  Both decide on
their own whether a turn is empty and how the call of a declared tool is
restored; this module says exactly where they agree.
-/
import Vellum.Proxy.ChatResponse
import Vellum.Proxy.ChatWellFormed

namespace Vellum.Proxy

open List Option Json

/-- The two names providers give the reasoning text. -/
inductive ReasoningField where
  | reasoningContent
  | reasoning

def ReasoningField.name : ReasoningField → String
  | reasoningContent => "reasoning_content"
  | reasoning => "reasoning"

/-- A complete tool call. -/
structure ChatToolCall where
  id : String := ""
  name : String := ""
  arguments : String := ""

def ChatToolCall.toJson (call : ChatToolCall) : Json :=
  .obj [("id", .str call.id), ("type", .str "function"),
    ("function", .obj [("name", .str call.name),
      ("arguments", .str call.arguments)])]

/-- An assistant message. -/
structure ChatMessage where
  reasoningField : ReasoningField := .reasoningContent
  reasoning : String := ""
  content : String := ""
  calls : List ChatToolCall := []

def ChatMessage.toJson (message : ChatMessage) : Json :=
  .obj [("role", .str "assistant"),
    (message.reasoningField.name, .str message.reasoning),
    ("content", .str message.content),
    ("tool_calls", .arr (message.calls.map ChatToolCall.toJson))]

/-- The completion that holds a whole message. -/
def ChatMessage.body (message : ChatMessage) (id : String) (created : Nat) :
    Json :=
  .obj [("id", .str id), ("object", .str "chat.completion"),
    ("created", .nat created),
    ("choices", .arr [.obj [("index", .nat 0), ("message", message.toJson)]])]

/-- A field that may be left out. -/
def optionalField (name : String) : Option Json → List (String × Json)
  | some value => [(name, value)]
  | none => []

/-- A piece of a tool call as a provider streams it: the id comes whole, the
name and the arguments in parts. -/
structure CallPiece where
  index : UInt64
  id : Option String := none
  name : Option String := none
  arguments : String := ""

def CallPiece.toJson (piece : CallPiece) : Json :=
  .obj (("index", .nat piece.index.toNat) ::
    optionalField "id" (piece.id.map Json.str) ++
    [("function", .obj (optionalField "name" (piece.name.map Json.str) ++
      [("arguments", .str piece.arguments)]))])

/-- A chunk of a streamed message. -/
structure ChatChunk where
  reasoningField : ReasoningField := .reasoningContent
  reasoning : Option String := none
  content : Option String := none
  calls : List CallPiece := []
  finishReason : Option String := none
  usage : Option Json := none

def ChatChunk.delta (chunk : ChatChunk) : Json :=
  .obj (optionalField chunk.reasoningField.name
      (chunk.reasoning.map Json.str) ++
    optionalField "content" (chunk.content.map Json.str) ++
    if chunk.calls.isEmpty then []
    else [("tool_calls", .arr (chunk.calls.map CallPiece.toJson))])

def ChatChunk.toJson (chunk : ChatChunk) : Json :=
  .obj (("choices", .arr [.obj [("index", .nat 0), ("delta", chunk.delta),
      ("finish_reason", Json.ofOption chunk.finishReason)]]) ::
    optionalField "usage" chunk.usage)

/-- The fragment the adapter reads off a piece. -/
def CallPiece.fragment (piece : CallPiece) : CallFragment where
  index := piece.index.toNat
  id := piece.id.getD ""
  name := piece.name.getD ""
  arguments := piece.arguments

section

variable (crates : Crates) (first : String) {name : String} (second : String)
  (context : CodexToolContext) (id : String) (namespaces : NamespaceToolContext)
  (responseId : String) (message : ChatMessage) (callId : String)

theorem CallPiece.read_toJson (piece : CallPiece) :
    CallFragment.read crates piece.toJson = piece.fragment := by
  have hindex : piece.toJson.get "index" = some (.nat piece.index.toNat) :=
    rfl
  have hid : (piece.toJson.get "id").bind Json.asStr = piece.id := by
    obtain ⟨index, id, name, arguments⟩ := piece
    cases id <;> rfl
  have hname : (piece.toJson.pointer ["function", "name"]).bind Json.asStr =
      piece.name := by
    obtain ⟨index, id, name, arguments⟩ := piece
    cases id <;> cases name <;> rfl
  have harguments : piece.toJson.pointer ["function", "arguments"] =
      some (.str piece.arguments) := by
    obtain ⟨index, id, name, arguments⟩ := piece
    cases id <;> cases name <;> rfl
  rw [CallFragment.read, hindex, bind_some,
    asU64_nat piece.index.toNat_lt, hid, hname, harguments]
  rfl

/-- The parts the adapter reads off a chunk. -/
def ChatChunk.parts (chunk : ChatChunk) : ChatDelta where
  usage := chunk.usage.filter (· ≠ .null)
  reasoning := chunk.reasoning.filter (· ≠ "")
  content := chunk.content.filter (· ≠ "")
  calls := chunk.calls.map CallPiece.fragment
  terminal := chunk.finishReason.isSome

theorem ChatChunk.get_delta (chunk : ChatChunk) :
    chatReasoningText chunk.delta = chunk.reasoning.filter (· ≠ "") ∧
      (chunk.delta.get "content").bind Json.asStr = chunk.content ∧
      ((chunk.delta.get "tool_calls").bind Json.asArr).getD [] =
        chunk.calls.map CallPiece.toJson := by
  obtain ⟨field, reasoning, content, calls, finishReason, usage⟩ := chunk
  cases calls <;> cases field <;> cases reasoning <;> cases content <;>
    exact ⟨rfl, rfl, rfl⟩

theorem ChatChunk.read_toJson (chunk : ChatChunk) :
    ChatDelta.read crates chunk.toJson = chunk.parts := by
  obtain ⟨hreasoning, hcontent, hcalls⟩ := chunk.get_delta
  have hdelta : chunk.toJson.pointer ["choices", "0", "delta"] =
      some chunk.delta := rfl
  have husage : chunk.toJson.get "usage" = chunk.usage := by
    obtain ⟨field, reasoning, content, calls, finishReason, usage⟩ := chunk
    cases usage <;> rfl
  have hfinish : (chunk.toJson.pointer ["choices", "0", "finish_reason"]) =
      some (Json.ofOption chunk.finishReason) := rfl
  have hterminal : (some (Json.ofOption chunk.finishReason)).any (· ≠ .null) =
      chunk.finishReason.isSome := by
    cases chunk.finishReason <;> rfl
  have hread : chunk.calls.map (CallFragment.read crates ∘ CallPiece.toJson) =
      chunk.calls.map CallPiece.fragment :=
    map_congr_left fun piece _ => piece.read_toJson crates
  rw [ChatDelta.read, hdelta, hfinish, hterminal, husage, getD_some,
    hreasoning, hcontent, hcalls, List.map_map, hread]
  rfl

/-- The texts gathered from a stream. -/
structure Gathered where
  reasoning : String := ""
  filter : ModelContentFilter := {}
  text : String := ""

namespace Gathered

def addReasoning (gathered : Gathered) (reasoning : String) : Gathered :=
  { gathered with reasoning := gathered.reasoning ++ reasoning }

def addContent (gathered : Gathered) (content : String) : Gathered :=
  let filtered := gathered.filter.push content.toList
  { gathered with
    filter := filtered.1
    text := gathered.text ++ String.ofList filtered.2 }

/-- A part a chunk may leave out. -/
def addIfPresent (add : Gathered → String → Gathered)
    (piece : Option String) (gathered : Gathered) : Gathered :=
  match piece with
  | some text => add gathered text
  | none => gathered

def add (gathered : Gathered) (delta : ChatDelta) : Gathered :=
  addIfPresent addContent delta.content
    (addIfPresent addReasoning delta.reasoning gathered)

def addAll (gathered : Gathered) (chunks : List ChatChunk) : Gathered :=
  chunks.foldl (fun gathered chunk => gathered.add chunk.parts) gathered

/-- The pieces of content that reach the filter. -/
def contentPieces (chunks : List ChatChunk) : List (List Char) :=
  chunks.filterMap fun chunk =>
    (chunk.content.filter (· ≠ "")).map String.toList

variable (chunks : List ChatChunk)

theorem flatten_contentPieces :
    (contentPieces chunks).flatten =
      (String.join (chunks.map fun chunk => chunk.content.getD "")).toList := by
  induction chunks with
  | nil => rfl
  | cons chunk chunks ih =>
    have hcons : (contentPieces (chunk :: chunks)).flatten =
        (chunk.content.getD "").toList ++
          (contentPieces chunks).flatten := by
      rw [contentPieces, filterMap_cons, ← contentPieces]
      cases hcontent : chunk.content with
      | none => simp
      | some content =>
        by_cases hempty : content = ""
        · simp [Option.filter, hempty]
        · simp [Option.filter, hempty]
    rw [hcons, ih, map_cons, String.join_cons, String.toList_append]

theorem addIfPresent_reasoning (reasoning : Option String)
    (gathered : Gathered) :
    addIfPresent addReasoning (reasoning.filter (· ≠ "")) gathered =
      { gathered with
        reasoning := gathered.reasoning ++ reasoning.getD "" } := by
  cases reasoning with
  | none => simp [addIfPresent]
  | some reasoning =>
    by_cases hempty : reasoning = ""
    · simp [addIfPresent, Option.filter, hempty]
    · simp [addIfPresent, addReasoning, Option.filter, hempty]

theorem addAll_eq (gathered : Gathered) (chunks : List ChatChunk) :
    gathered.addAll chunks =
      { reasoning := gathered.reasoning ++
          String.join (chunks.map fun chunk => chunk.reasoning.getD "")
        filter := (gathered.filter.pushAll (contentPieces chunks)).1
        text := gathered.text ++ String.ofList
          (gathered.filter.pushAll (contentPieces chunks)).2 } := by
  induction chunks generalizing gathered with
  | nil => simp [addAll, contentPieces, ModelContentFilter.pushAll]
  | cons chunk chunks ih =>
    have hfirst : gathered.addAll (chunk :: chunks) =
        (gathered.add chunk.parts).addAll chunks := rfl
    rw [hfirst, ih, add]
    simp only [ChatChunk.parts, addIfPresent_reasoning, map_cons,
      String.join_cons]
    rw [contentPieces, contentPieces, filterMap_cons]
    cases hcontent : chunk.content.filter (· ≠ "") with
    | none => simp [addIfPresent, String.append_assoc]
    | some content =>
      simp [addIfPresent, addContent, ModelContentFilter.pushAll,
        String.append_assoc]

/-- A new adapter that is fed a message in chunks has gathered its reasoning
and what the filter shows of its whole content. -/
theorem addAll_new :
    ({} : Gathered).addAll chunks =
      { reasoning :=
          String.join (chunks.map fun chunk => chunk.reasoning.getD "")
        filter := (({} : ModelContentFilter).push (String.join
          (chunks.map fun chunk => chunk.content.getD "")).toList).1
        text := String.ofList (({} : ModelContentFilter).push (String.join
          (chunks.map fun chunk => chunk.content.getD "")).toList).2 } := by
  rw [addAll_eq, ModelContentFilter.pushAll_new, flatten_contentPieces]
  simp

end Gathered

/-- The call after a fragment. -/
def ChatToolCall.extend (call : ChatToolCall) (fragment : CallFragment) :
    ChatToolCall where
  id := if fragment.id = "" then call.id else fragment.id
  name := call.name ++ fragment.name
  arguments := call.arguments ++ fragment.arguments

/-- The call after all of its fragments; the first one begins it. -/
def gatherCall (call : Option ChatToolCall) (fragments : List CallFragment) :
    Option ChatToolCall :=
  fragments.foldl (fun call fragment => some ((call.getD {}).extend fragment))
    call

/-- Fragments that carry the id of a call or none, and its name and arguments
in parts, gather into the call. -/
theorem gatherCall_eq {call : ChatToolCall} {fragments : List CallFragment}
    (hcall : call.id = "" ∨ call.id = id)
    (hids : ∀ fragment ∈ fragments, fragment.id = "" ∨ fragment.id = id)
    (hid : call.id = id ∨ ∃ fragment ∈ fragments, fragment.id = id) :
    gatherCall (some call) fragments =
      some { id := id
             name := call.name ++
               String.join (fragments.map CallFragment.name)
             arguments := call.arguments ++
               String.join (fragments.map CallFragment.arguments) } := by
  induction fragments generalizing call with
  | nil =>
    rcases hid with rfl | ⟨fragment, hfragment, -⟩
    · simp [gatherCall]
    · cases hfragment
  | cons fragment fragments ih =>
    have hfirst : gatherCall (some call) (fragment :: fragments) =
        gatherCall (some (call.extend fragment)) fragments := rfl
    have hnext : (call.extend fragment).id = "" ∨
        (call.extend fragment).id = id := by
      rw [ChatToolCall.extend]
      split
      · exact hcall
      · rename_i hne
        exact Or.inr ((hids fragment mem_cons_self).resolve_left hne)
    have hkept : (call.extend fragment).id = id ∨
        ∃ fragment ∈ fragments, fragment.id = id := by
      by_cases hown : fragment.id = ""
      · have hsame : (call.extend fragment).id = call.id := if_pos hown
        rcases hid with hid | ⟨other, hother, hid⟩
        · exact Or.inl (hsame.trans hid)
        · rcases mem_cons.mp hother with rfl | hother
          · rcases hcall with hempty | hid'
            · exact Or.inl (hsame.trans (hempty.trans (hown.symm.trans hid)))
            · exact Or.inl (hsame.trans hid')
          · exact Or.inr ⟨other, hother, hid⟩
      · have hset : (call.extend fragment).id = fragment.id := if_neg hown
        exact Or.inl (hset.trans
          ((hids fragment mem_cons_self).resolve_left hown))
    rw [hfirst, ih hnext
      (fun other hother => hids other (mem_cons_of_mem _ hother)) hkept]
    simp [ChatToolCall.extend, String.append_assoc]

/-- The parts of a streamed call that make up a complete one. -/
def StreamToolCall.parts (call : StreamToolCall) : ChatToolCall :=
  ⟨call.id, call.name, call.arguments⟩

/-- The response of a terminal event. -/
def StreamEvent.terminalResponse : StreamEvent → Option Json
  | failed response | completed response => some response
  | _ => none

/-- The pieces chunks bring for a provider index. -/
def piecesAt (chunks : List ChatChunk) (index : Nat) : List CallPiece :=
  (chunks.flatMap ChatChunk.calls).filter fun piece =>
    piece.index.toNat = index

/-- Pieces that make up a call: its name and arguments in parts, its id with
one of them at least and no other id with any. -/
structure SplitsCall (call : ChatToolCall) (pieces : List CallPiece) :
    Prop where
  id : ∃ piece ∈ pieces, piece.id = some call.id
  ids : ∀ piece ∈ pieces, ∀ id, piece.id = some id → id = "" ∨ id = call.id
  name : String.join (pieces.map fun piece => piece.name.getD "") = call.name
  arguments : String.join (pieces.map CallPiece.arguments) = call.arguments

/-- Chunks that make up a message, its strings split in any way. -/
structure Splits (message : ChatMessage) (chunks : List ChatChunk) :
    Prop where
  reasoning : String.join (chunks.map fun chunk => chunk.reasoning.getD "") =
    message.reasoning
  content : String.join (chunks.map fun chunk => chunk.content.getD "") =
    message.content
  calls : ∀ index call, message.calls[index]? = some call →
    SplitsCall call (piecesAt chunks index)
  others : ∀ index, message.calls[index]? = none → piecesAt chunks index = []

theorem Splits.gatherCall {message : ChatMessage} {chunks : List ChatChunk}
    (hsplit : Splits message chunks) (index : Nat) :
    gatherCall none ((piecesAt chunks index).map CallPiece.fragment) =
      message.calls[index]? := by
  cases hcall : message.calls[index]? with
  | none =>
    rw [hsplit.others index hcall]
    rfl
  | some call =>
    obtain ⟨hid, hids, hname, harguments⟩ := hsplit.calls index call hcall
    cases hpieces : piecesAt chunks index with
    | nil =>
      rw [hpieces] at hid
      obtain ⟨piece, hpiece, -⟩ := hid
      cases hpiece
    | cons piece pieces =>
      -- An empty call before the first fragment is the same beginning.
      have hbegin : Proxy.gatherCall none
          ((piece :: pieces).map CallPiece.fragment) =
          Proxy.gatherCall (some {})
            ((piece :: pieces).map CallPiece.fragment) := rfl
      rw [← hpieces] at hbegin ⊢
      rw [hbegin, gatherCall_eq call.id (Or.inl rfl)]
      · rw [List.map_map, List.map_map]
        simp only [String.empty_append, some.injEq]
        have hcallEq : call = ⟨call.id, call.name, call.arguments⟩ := rfl
        rw [hcallEq]
        simp only [ChatToolCall.mk.injEq, true_and]
        exact ⟨hname, harguments⟩
      · intro fragment hfragment
        obtain ⟨piece, hpiece, rfl⟩ := List.mem_map.mp hfragment
        cases hsome : piece.id with
        | none => exact Or.inl (by simp [CallPiece.fragment, hsome])
        | some id =>
          have hown := hids piece hpiece id hsome
          simpa [CallPiece.fragment, hsome] using hown
      · obtain ⟨piece, hpiece, hsome⟩ := hid
        exact Or.inr ⟨piece.fragment, List.mem_map_of_mem hpiece,
          by simp [CallPiece.fragment, hsome]⟩

namespace ChatSseAdapter

def gathered (adapter : ChatSseAdapter) : Gathered :=
  ⟨adapter.reasoning, adapter.contentFilter, adapter.text⟩

/-- The call an adapter has gathered under a provider index. -/
def callAt (adapter : ChatSseAdapter) (index : Nat) : Option ChatToolCall :=
  (OrderedMap.lookup index adapter.toolCalls).map StreamToolCall.parts

section

variable (crates : Crates) (adapter : ChatSseAdapter) (clock : Clock)

@[simp]
theorem gathered_ensureStarted (adapter : ChatSseAdapter) :
    (ensureStarted clock adapter).1.gathered = adapter.gathered := by
  rw [ensureStarted]
  split <;> rfl

@[simp]
theorem gathered_countUsage (usage : Option Json) :
    (adapter.countUsage usage).gathered = adapter.gathered := by
  cases usage <;> rfl

theorem gathered_pushReasoning (reasoning : String) :
    (pushReasoning adapter reasoning).1.gathered =
      adapter.gathered.addReasoning reasoning := by
  simp only [pushReasoning, openReasoning, Emission.andThen]
  split <;> rfl

theorem gathered_showText (content : String) :
    (showText adapter content).1.gathered =
      { adapter.gathered with text := adapter.text ++ content } := by
  simp only [showText, openMessage, Emission.andThen]
  split
  · rename_i hempty
    rw [hempty, String.append_empty]
    rfl
  · split <;> rfl

theorem gathered_pushContent (content : String) :
    (pushContent adapter content).1.gathered =
      adapter.gathered.addContent content :=
  gathered_showText _ _

theorem gathered_pushIfPresent {push : ChatSseAdapter → String → Emission}
    {add : Gathered → String → Gathered}
    (hpush : ∀ adapter text,
      (push adapter text).1.gathered = add adapter.gathered text)
    (piece : Option String) (adapter : ChatSseAdapter) :
    (pushIfPresent push piece adapter).1.gathered =
      Gathered.addIfPresent add piece adapter.gathered := by
  cases piece with
  | none => rfl
  | some text => exact hpush adapter text

theorem gathered_pushCalls (fragments : List CallFragment) :
    (pushCalls crates adapter fragments).1.gathered = adapter.gathered := by
  induction fragments generalizing adapter with
  | nil => rfl
  | cons fragment fragments ih => exact ih (pushCall crates adapter fragment).1

theorem gathered_pushDelta (adapter : ChatSseAdapter) (delta : ChatDelta) :
    (pushDelta crates clock adapter delta).1.gathered =
      adapter.gathered.add delta := by
  have hparts : (pushDelta crates clock adapter delta).1.gathered =
      (pushCalls crates (beforeCalls clock adapter delta).1
        delta.calls).1.gathered := rfl
  rw [hparts, gathered_pushCalls, beforeCalls, Gathered.add]
  simp only [Emission.andThen]
  rw [gathered_pushIfPresent gathered_pushContent,
    gathered_pushIfPresent gathered_pushReasoning, gathered_ensureStarted,
    gathered_countUsage]

theorem callAt_pushCall {adapter : ChatSseAdapter}
    (hsorted : OrderedMap.Sorted adapter.toolCalls) (fragment : CallFragment)
    (index : Nat) :
    (pushCall crates adapter fragment).1.callAt index =
      if fragment.index = index then
        some (((adapter.callAt index).getD {}).extend fragment)
      else adapter.callAt index := by
  have hcalls : (pushCall crates adapter fragment).1.toolCalls =
      OrderedMap.upsert fragment.index
        (fun _ => (adapter.callEntry fragment.index).extend fragment)
        adapter.toolCalls := rfl
  rw [callAt, hcalls, OrderedMap.lookup_upsert _ _ hsorted]
  by_cases hindex : fragment.index = index
  · rw [if_pos hindex.symm, if_pos hindex, ← hindex, map_some,
      callAt, callEntry]
    cases OrderedMap.lookup fragment.index adapter.toolCalls <;> rfl
  · rw [if_neg (Ne.symm hindex), if_neg hindex, callAt]

theorem callAt_pushCalls (hsorted : OrderedMap.Sorted adapter.toolCalls)
    (fragments : List CallFragment) :
    OrderedMap.Sorted (pushCalls crates adapter fragments).1.toolCalls ∧
      ∀ index, (pushCalls crates adapter fragments).1.callAt index =
        gatherCall (adapter.callAt index)
          (fragments.filter fun fragment => fragment.index = index) := by
  induction fragments generalizing adapter with
  | nil => exact ⟨hsorted, fun _ => rfl⟩
  | cons fragment fragments ih =>
    obtain ⟨hnext, hcalls⟩ :=
      ih (pushCall crates adapter fragment).1 (hsorted.upsert _ _)
    refine ⟨hnext, ?_⟩
    intro index
    have hlast : (pushCalls crates adapter (fragment :: fragments)).1 =
        (pushCalls crates (pushCall crates adapter fragment).1
          fragments).1 := rfl
    rw [hlast, hcalls index, callAt_pushCall crates hsorted]
    by_cases hindex : fragment.index = index
    · rw [if_pos hindex, filter_cons_of_pos (by simpa using hindex)]
      rfl
    · rw [if_neg hindex, filter_cons_of_neg (by simpa using hindex)]

theorem callAt_pushDelta {adapter : ChatSseAdapter}
    (hsorted : OrderedMap.Sorted adapter.toolCalls) (delta : ChatDelta) :
    OrderedMap.Sorted (pushDelta crates clock adapter delta).1.toolCalls ∧
      ∀ index, (pushDelta crates clock adapter delta).1.callAt index =
        gatherCall (adapter.callAt index)
          (delta.calls.filter fun fragment => fragment.index = index) := by
  have hbefore := toolCalls_beforeCalls clock adapter delta
  have hcalls := callAt_pushCalls crates (beforeCalls clock adapter delta).1
    (hbefore ▸ hsorted) delta.calls
  simp only [callAt, hbefore] at hcalls ⊢
  exact hcalls

/-- An adapter before and after it was fed chunks. -/
structure Fed (chunks : List ChatChunk) (before after : ChatSseAdapter) :
    Prop where
  finished : after.finished = before.finished
  toolContext : after.toolContext = before.toolContext
  namespaceContext : after.namespaceContext = before.namespaceContext
  gathered : after.gathered = before.gathered.addAll chunks
  sorted : OrderedMap.Sorted after.toolCalls
  callAt : ∀ index, after.callAt index =
    gatherCall (before.callAt index)
      ((piecesAt chunks index).map CallPiece.fragment)

/-- The calls that push the data of a stream. -/
def pushes (data : List (Clock × String)) : List ChatCall :=
  data.map fun push => .pushData push.1 push.2

/-- Data that parse as these chunks. -/
def Carry (crates : Crates) (data : List (Clock × String))
    (chunks : List ChatChunk) : Prop :=
  List.Forall₂ (fun push chunk => crates.fromStr push.2 = some chunk.toJson)
    data chunks

/-- The end marker of a stream is no JSON text. -/
def RejectsDone (crates : Crates) : Prop :=
  ∀ text, Text.trim text.toList = "[DONE]".toList →
    crates.fromStr text = none

theorem pushData_chunk {crates : Crates} (hreject : RejectsDone crates)
    (clock : Clock) {adapter : ChatSseAdapter}
    (hopen : adapter.finished = false) {data : String} {chunk : ChatChunk}
    (hparse : crates.fromStr data = some chunk.toJson) :
    pushData crates clock adapter data =
      numbered (pushDelta crates clock adapter chunk.parts) := by
  have hdone : ¬ Text.trim data.toList = "[DONE]".toList := by
    intro hdone
    rw [hreject data hdone] at hparse
    cases hparse
  rw [pushData, if_neg (by simp [hopen]), if_neg hdone, hparse]
  simp only [ChatChunk.read_toJson]

theorem gatherCall_append (call : Option ChatToolCall)
    (first rest : List CallFragment) :
    gatherCall call (first ++ rest) = gatherCall (gatherCall call first) rest :=
  foldl_append ..

theorem fed_run {crates : Crates} (hreject : RejectsDone crates)
    {data : List (Clock × String)} {chunks : List ChatChunk}
    (hdata : Carry crates data chunks) (adapter : ChatSseAdapter)
    (hopen : adapter.finished = false)
    (hsorted : OrderedMap.Sorted adapter.toolCalls) :
    Fed chunks adapter (run crates adapter (pushes data)).1 := by
  induction hdata generalizing adapter with
  | nil => exact ⟨rfl, rfl, rfl, rfl, hsorted, fun _ => rfl⟩
  | @cons push chunk data chunks hparse _ ih =>
    have hsame := SameStream.pushDelta crates push.1 adapter chunk.parts
    have hcalls := callAt_pushDelta crates push.1 hsorted chunk.parts
    have hnext : call crates adapter (.pushData push.1 push.2) =
        numbered (pushDelta crates push.1 adapter chunk.parts) :=
      pushData_chunk hreject push.1 hopen hparse
    have hrest := ih (call crates adapter (.pushData push.1 push.2)).1
      (by rw [hnext]; exact hsame.finished.trans hopen)
      (by rw [hnext]; exact hcalls.1)
    have hlast : (run crates adapter (pushes (push :: data))).1 =
        (run crates (call crates adapter (.pushData push.1 push.2)).1
          (pushes data)).1 := rfl
    rw [hlast]
    rw [hnext] at hrest ⊢
    refine ⟨hrest.finished.trans hsame.finished,
      hrest.toolContext.trans hsame.toolContext,
      hrest.namespaceContext.trans hsame.namespaceContext, ?_,
      hrest.sorted, ?_⟩
    · rw [hrest.gathered]
      exact congrArg (Gathered.addAll · chunks)
        (gathered_pushDelta crates push.1 adapter chunk.parts)
    · intro index
      have hpieces : piecesAt (chunk :: chunks) index =
          (chunk.calls.filter fun piece => piece.index.toNat = index) ++
            piecesAt chunks index := by
        rw [piecesAt, flatMap_cons, filter_append, piecesAt]
      have hfirst := hcalls.2 index
      rw [ChatChunk.parts, List.filter_map] at hfirst
      rw [hrest.callAt index, hpieces, map_append, gatherCall_append]
      exact congrArg (gatherCall · _) hfirst

theorem run_append (calls more : List ChatCall) :
    run crates adapter (calls ++ more) =
      ((run crates (run crates adapter calls).1 more).1,
        (run crates adapter calls).2 ++
          (run crates (run crates adapter calls).1 more).2) := by
  induction calls generalizing adapter with
  | nil => rfl
  | cons next calls ih =>
    rw [cons_append, run, run, ih]
    simp only [append_assoc]

/-- The response a stream ends on. -/
def lastResponse (events : List NumberedEvent) : Option Json :=
  events.getLast?.bind fun numbered => numbered.event.terminalResponse

/-- An adapter as it is when its items are closed. -/
def closing (clock : Clock) (adapter : ChatSseAdapter) : ChatSseAdapter :=
  (beforeClose clock { adapter with finished := true }).1

/-- The end marker makes the terminal event the last one. -/
theorem lastResponse_done {adapter : ChatSseAdapter}
    (hopen : adapter.finished = false) (events : List NumberedEvent) :
    lastResponse (events ++ (pushData crates clock adapter "[DONE]").2) =
      (terminalEvent crates clock.completed
        (adapter.closing clock)).terminalResponse := by
  have hdone : Text.trim "[DONE]".toList = "[DONE]".toList := by decide
  have hpush : pushData crates clock adapter "[DONE]" =
      numbered (finish crates clock { adapter with finished := true }) := by
    rw [pushData, if_neg (by simp [hopen]), if_pos hdone]
  have hlast : ((numbered (finish crates clock
      { adapter with finished := true })).2.map NumberedEvent.event).getLast? =
      some (terminalEvent crates clock.completed (adapter.closing clock)) := by
    rw [numbered, (number_spec _ _).1, finish, Emission.andThen, closeItems,
      ← append_assoc, getLast?_concat, closing]
  rw [getLast?_map] at hlast
  obtain ⟨numbered, hnumbered, hevent⟩ := map_eq_some_iff.mp hlast
  rw [lastResponse, hpush, getLast?_append, hnumbered, some_or,
    bind_some, hevent]

end

/-- A tool call in the completed response of a stream. -/
def streamCallItem (crates : Crates) (context : CodexToolContext)
    (namespaces : NamespaceToolContext) (index : Nat) (call : ChatToolCall) :
    Json :=
  let callId := callIdOr call.id index
  let itemId := normalizedItemId crates (context.itemFront call.name) callId
  if context.isCustom call.name then
    customCallItem itemId callId (shownName call.name)
      (customToolInput crates call.arguments)
  else
    namespaces.restoreItem (context.restoreOutputItem crates
      (functionCallItem itemId callId (shownName call.name) call.arguments
        "completed"))

/-- The text of a message a client gets to see. -/
def visibleText (message : ChatMessage) : String :=
  String.ofList (sanitizeModelContent message.content.toList)

/-- An adapter that is about to close the items of a message. -/
structure Holds (message : ChatMessage) (adapter : ChatSseAdapter) :
    Prop where
  reasoning : adapter.reasoning = message.reasoning
  text : adapter.text = visibleText message
  calls : adapter.toolCalls.map (fun entry => (entry.1, entry.2.parts)) =
    message.calls.zipIdx.map Prod.swap

theorem holds_closing {chunks : List ChatChunk} {before after : ChatSseAdapter}
    (hfed : Fed chunks before after) {message : ChatMessage}
    (hsplit : Splits message chunks) (hgathered : before.gathered = {})
    (hcalls : before.toolCalls = []) (clock : Clock) :
    Holds message (after.closing clock) := by
  have hall := hfed.gathered
  rw [hgathered, Gathered.addAll_new, hsplit.reasoning, hsplit.content] at hall
  have hreasoning : after.reasoning = message.reasoning :=
    congrArg Gathered.reasoning hall
  have hfilter : after.contentFilter =
      (({} : ModelContentFilter).push message.content.toList).1 :=
    congrArg Gathered.filter hall
  have htext : after.text = String.ofList
      (({} : ModelContentFilter).push message.content.toList).2 :=
    congrArg Gathered.text hall
  have hclosing : (after.closing clock).gathered =
      { reasoning := after.reasoning
        filter := after.contentFilter.finish.1
        text := after.text ++ String.ofList after.contentFilter.finish.2 } := by
    have hstarted := gathered_ensureStarted clock
      { after with finished := true }
    have hfilter' := congrArg Gathered.filter hstarted
    have htext' := congrArg Gathered.text hstarted
    have hreasoning' := congrArg Gathered.reasoning hstarted
    simp only [gathered] at hfilter' htext' hreasoning'
    simp only [closing, beforeClose, Emission.andThen, showTrailing]
    rw [gathered_showText]
    simp only [gathered, hfilter', htext', hreasoning']
  constructor
  · rw [← hreasoning]
    exact congrArg Gathered.reasoning hclosing
  · have hshown : (after.closing clock).text =
        after.text ++ String.ofList after.contentFilter.finish.2 :=
      congrArg Gathered.text hclosing
    rw [hshown, htext, hfilter, visibleText, sanitizeModelContent,
      String.ofList_append]
  · have hkept : (after.closing clock).toolCalls = after.toolCalls :=
      toolCalls_beforeClose clock { after with finished := true }
    rw [hkept]
    apply OrderedMap.eq_zipIdx (hfed.sorted.map _)
    · intro entry _
      exact Nat.zero_le _
    · intro index
      rw [OrderedMap.lookup_map, Nat.zero_add, ← hsplit.gatherCall index]
      have hcall := hfed.callAt index
      have hnone : before.callAt index = none := by
        rw [callAt, hcalls]
        rfl
      rw [hnone] at hcall
      exact hcall

end ChatSseAdapter

/-- The same item, ids apart. -/
def SameItem (left right : Json) : Prop :=
  ∀ key, key ≠ "id" → left.get key = right.get key

/-- The id the whole translation gives a call. -/
def wholeCallId (id : String) : String := if isBlank id then "call" else id

theorem wholeCallItem_toJson (call : ChatToolCall) :
    wholeCallItem crates call.toJson =
      functionCallItem (normalizedItemId crates "fc_" (wholeCallId call.id))
        (wholeCallId call.id) call.name call.arguments "completed" := by
  have hid : (((call.toJson.get "id").bind Json.asStr).filter
      (fun id => !isBlank id)).getD "call" = wholeCallId call.id := by
    have hget : (call.toJson.get "id").bind Json.asStr = some call.id := rfl
    rw [hget, wholeCallId]
    by_cases hblank : isBlank call.id = true
    · simp [Option.filter, hblank]
    · simp [Option.filter, hblank]
  rw [wholeCallItem, hid]
  rfl

theorem callIds_eq_iff (index : Nat) :
    callIdOr id index = wholeCallId id ↔ isBlank id = false := by
  constructor
  · intro hids
    by_contra hblank
    rw [Bool.not_eq_false] at hblank
    rw [wholeCallId, if_pos hblank, callIdOr] at hids
    split at hids
    · have hlength := congrArg String.length hids
      rw [String.length_append] at hlength
      have hcall : "call_".length = 5 ∧ "call".length = 4 := by decide
      omega
    · rw [hids] at hblank
      revert hblank
      decide
  · intro hblank
    have hne : id ≠ "" := by
      rintro rfl
      revert hblank
      decide
    rw [callIdOr, if_neg hne, wholeCallId, if_neg (by simp [hblank])]

/-- A name without an underscore is no flattened name. -/
theorem NamespaceToolContext.split_eq_none (hname : '_' ∉ name.toList)
    (context : NamespaceToolContext) : context.split name = none := by
  rw [split, find?_eq_none]
  intro tool _ hflat
  rw [decide_eq_true_eq] at hflat
  apply hname
  rw [← hflat, flattenNamespaceName]
  simp

theorem sameItem_functionCall (name arguments status : String) :
    SameItem (functionCallItem first callId name arguments status)
      (functionCallItem second callId name arguments status) := by
  intro key hkey
  simp only [functionCallItem, functionCallFields, get_cons,
    if_neg (Ne.symm hkey)]

theorem sameItem_restoreItem {left right : List (String × Json)}
    (hsame : SameItem (.obj left) (.obj right))
    (namespaces : NamespaceToolContext) :
    SameItem (namespaces.restoreItem (.obj left))
      (namespaces.restoreItem (.obj right)) := by
  have htype := hsame "type" (by decide)
  have hname := hsame "name" (by decide)
  rw [NamespaceToolContext.restoreItem, NamespaceToolContext.restoreItem,
    htype, hname]
  by_cases hcall : ((Json.obj right).get "type").bind Json.asStr =
      some "function_call"
  · rw [if_pos hcall, if_pos hcall]
    cases (((Json.obj right).get "name").bind Json.asStr).bind
      namespaces.split with
    | none => exact hsame
    | some parts =>
      intro key hkey
      rw [get_insertField, get_insertField, get_insertField,
        get_insertField, hsame key hkey]
  · rw [if_neg hcall, if_neg hcall]
    exact hsame

/-- The field orders of the two custom call items differ, their fields do
not. -/
theorem sameItem_custom (name input : String) :
    SameItem (customCallItem first callId name input)
      (.obj [("type", .str "custom_tool_call"), ("id", .str second),
        ("call_id", .str callId), ("name", .str name),
        ("status", .str "completed"), ("input", .str input)]) := by
  intro key hkey
  simp only [customCallItem, get_cons, if_neg (Ne.symm hkey)]
  by_cases hinput : "input" = key
  · subst hinput
    rfl
  · simp only [if_neg hinput]

theorem sameItem_toolSearch (status : String) (arguments : Json) :
    SameItem
      (.obj [("type", .str "tool_search_call"), ("id", .str first),
        ("call_id", .str callId), ("status", .str status),
        ("arguments", arguments), ("execution", .str "client")])
      (.obj [("type", .str "tool_search_call"), ("id", .str second),
        ("call_id", .str callId), ("status", .str status),
        ("arguments", arguments), ("execution", .str "client")]) := by
  intro key hkey
  simp only [get_cons, if_neg (Ne.symm hkey)]

theorem restoreItem_functionCall_of_split
    (hsplit : namespaces.split name = none)
    (id callId arguments status : String) :
    namespaces.restoreItem
        (functionCallItem id callId name arguments status) =
      functionCallItem id callId name arguments status := by
  have hname : ((functionCallItem id callId name arguments status).get
      "name").bind Json.asStr = some name := rfl
  rw [functionCallItem] at hname ⊢
  simp only [NamespaceToolContext.restoreItem, hname, bind_some,
    hsplit, ite_self]

theorem get_namespace_restoreItem {namespaces : NamespaceToolContext}
    {tool : String × String} (hsplit : namespaces.split name = some tool)
    (id callId arguments status : String) :
    (namespaces.restoreItem
        (functionCallItem id callId name arguments status)).get "namespace" =
      some (.str tool.1) := by
  have htype : ((functionCallItem id callId name arguments status).get
      "type").bind Json.asStr = some "function_call" := rfl
  have hname : ((functionCallItem id callId name arguments status).get
      "name").bind Json.asStr = some name := rfl
  rw [functionCallItem] at htype hname ⊢
  simp only [NamespaceToolContext.restoreItem, htype, hname,
    bind_some, hsplit, if_true]
  rw [get_insertField, if_neg (by decide), get_insertField,
    if_pos rfl]

/-- A call both translations restore alike: its id is not blank, its name not
empty, its tool not declared under two kinds, and a patch has its delimiters
as the whole translation writes them. -/
structure TranslatesAlike (crates : Crates) (context : CodexToolContext)
    (call : ChatToolCall) : Prop where
  id : isBlank call.id = false
  name : call.name ≠ ""
  kind : ¬ (context.isCustom call.name = true ∧
    context.isToolSearch call.name = true)
  patch : context.isCustom call.name = true → isApplyPatch call.name = true →
    normalizePatchDelimiters (customToolInput crates call.arguments) =
      customToolInput crates call.arguments

/-- The item of a call in the whole translation. -/
def restoredCallItem (crates : Crates) (context : CodexToolContext)
    (call : ChatToolCall) : Json :=
  context.restoreOutputItem crates (wholeCallItem crates call.toJson)

section CallItems

variable {crates : Crates} {context : CodexToolContext}
  {namespaces : NamespaceToolContext} {call : ChatToolCall}

open ChatSseAdapter

theorem restoredCallItem_eq (crates : Crates) (context : CodexToolContext)
    (call : ChatToolCall) :
    restoredCallItem crates context call =
      if context.isToolSearch call.name then
        .obj [("type", .str "tool_search_call"),
          ("id", .str (normalizedItemId crates "tsc_"
            (normalizedItemId crates "fc_" (wholeCallId call.id)))),
          ("call_id", .str (wholeCallId call.id)),
          ("status", .str "completed"),
          ("arguments", CodexToolContext.toolSearchArguments crates
            (some (.str call.arguments))), ("execution", .str "client")]
      else if context.isCustom call.name then
        .obj [("type", .str "custom_tool_call"),
          ("id", .str (normalizedItemId crates "ctc_"
            (normalizedItemId crates "fc_" (wholeCallId call.id)))),
          ("call_id", .str (wholeCallId call.id)), ("name", .str call.name),
          ("status", .str "completed"),
          ("input", .str (if isApplyPatch call.name then
            normalizePatchDelimiters (customToolInput crates call.arguments)
            else customToolInput crates call.arguments))]
      else
        functionCallItem (normalizedItemId crates "fc_" (wholeCallId call.id))
          (wholeCallId call.id) call.name call.arguments "completed" := by
  rw [restoredCallItem, wholeCallItem_toJson, restoreOutputItem_functionCall,
    restoreToolSearch_functionCall, restoreCustom_functionCall]

theorem sameItem_custom_iff (hcustom : context.isCustom call.name = true)
    (namespaces : NamespaceToolContext) (index : Nat) :
    SameItem (streamCallItem crates context namespaces index call)
        (restoredCallItem crates context call) ↔
      TranslatesAlike crates context call := by
  have hstream : streamCallItem crates context namespaces index call =
      customCallItem (normalizedItemId crates (context.itemFront call.name)
          (callIdOr call.id index)) (callIdOr call.id index)
        (shownName call.name) (customToolInput crates call.arguments) :=
    if_pos hcustom
  rw [hstream, restoredCallItem_eq]
  by_cases hsearch : context.isToolSearch call.name = true
  · rw [if_pos hsearch]
    constructor
    · intro hsame
      have htype : "custom_tool_call" = "tool_search_call" :=
        Json.str.inj (some.inj (hsame "type" (by decide)))
      exact absurd htype (by decide)
    · intro halike
      exact absurd ⟨hcustom, hsearch⟩ halike.kind
  · rw [if_neg hsearch, if_pos hcustom]
    constructor
    · intro hsame
      have hid : callIdOr call.id index = wholeCallId call.id :=
        Json.str.inj (some.inj (hsame "call_id" (by decide)))
      have hname : shownName call.name = call.name :=
        Json.str.inj (some.inj (hsame "name" (by decide)))
      have hinput : customToolInput crates call.arguments = _ :=
        Json.str.inj (some.inj (hsame "input" (by decide)))
      refine ⟨(callIds_eq_iff _ _).mp hid, ?_, fun h => hsearch h.2, ?_⟩
      · intro hempty
        rw [hempty] at hname
        revert hname
        decide
      · intro _ hpatch
        rw [if_pos hpatch] at hinput
        exact hinput.symm
    · intro halike
      have hinput : (if isApplyPatch call.name then
          normalizePatchDelimiters (customToolInput crates call.arguments)
          else customToolInput crates call.arguments) =
          customToolInput crates call.arguments := by
        split
        · exact halike.patch hcustom (by assumption)
        · rfl
      have hname : shownName call.name = call.name := if_neg halike.name
      rw [(callIds_eq_iff _ index).mpr halike.id, hname, hinput]
      exact sameItem_custom _ _ _ _ _

theorem sameItem_toolSearch_iff (hcustom : ¬ context.isCustom call.name = true)
    (hsearch : context.isToolSearch call.name = true)
    (namespaces : NamespaceToolContext) (index : Nat) :
    SameItem (streamCallItem crates context namespaces index call)
        (restoredCallItem crates context call) ↔
      TranslatesAlike crates context call := by
  have hne : call.name ≠ "" := by
    intro hempty
    rw [hempty, CodexToolContext.isToolSearch] at hsearch
    simp at hsearch
  have hname : shownName call.name = call.name := if_neg hne
  have hstream : streamCallItem crates context namespaces index call =
      .obj [("type", .str "tool_search_call"),
        ("id", .str (normalizedItemId crates "tsc_"
          (normalizedItemId crates (context.itemFront call.name)
            (callIdOr call.id index)))),
        ("call_id", .str (callIdOr call.id index)),
        ("status", .str "completed"),
        ("arguments", CodexToolContext.toolSearchArguments crates
          (some (.str call.arguments))), ("execution", .str "client")] := by
    rw [streamCallItem]
    simp only [if_neg hcustom, hname]
    rw [restoreOutputItem_functionCall, if_pos hsearch,
      restoreToolSearch_functionCall]
    exact restoreItem_of_type namespaces rfl (by decide)
  rw [hstream, restoredCallItem_eq, if_pos hsearch]
  constructor
  · intro hsame
    have hid : callIdOr call.id index = wholeCallId call.id :=
      Json.str.inj (some.inj (hsame "call_id" (by decide)))
    exact ⟨(callIds_eq_iff _ _).mp hid, hne, fun h => hcustom h.1,
      fun h => absurd h hcustom⟩
  · intro halike
    rw [(callIds_eq_iff _ index).mpr halike.id]
    exact sameItem_toolSearch _ _ _ _ _

/-- The call of a function, its namespace restored on both sides. -/
theorem sameItem_function_iff (hcustom : ¬ context.isCustom call.name = true)
    (hsearch : ¬ context.isToolSearch call.name = true)
    (namespaces : NamespaceToolContext) (index : Nat) :
    SameItem (streamCallItem crates context namespaces index call)
        (namespaces.restoreItem (restoredCallItem crates context call)) ↔
      TranslatesAlike crates context call := by
  rw [restoredCallItem_eq, if_neg hsearch, if_neg hcustom, streamCallItem]
  simp only [if_neg hcustom]
  by_cases hempty : call.name = ""
  · -- The stream shows an unnamed call as `unknown`, the whole one does not.
    have hshown : shownName call.name = "unknown" := if_pos hempty
    have hright : (namespaces.restoreItem (functionCallItem
        (normalizedItemId crates "fc_" (wholeCallId call.id))
        (wholeCallId call.id) call.name call.arguments "completed")).get
          "name" = some (.str "") := by
      rw [hempty, restoreItem_functionCall_of_split namespaces
        (NamespaceToolContext.split_eq_none (by decide) namespaces)]
      rfl
    have hleft : (namespaces.restoreItem (context.restoreOutputItem crates
        (functionCallItem (normalizedItemId crates
            (context.itemFront call.name) (callIdOr call.id index))
          (callIdOr call.id index) "unknown" call.arguments
          "completed"))).get "name" = some (.str "unknown") := by
      have hsearch' : ¬ context.isToolSearch "unknown" = true := by
        simp [CodexToolContext.isToolSearch]
      rw [restoreOutputItem_functionCall, if_neg hsearch']
      split
      · rw [restoreCustom_functionCall,
          restoreItem_of_type namespaces rfl (by decide)]
        rfl
      · rw [restoreItem_functionCall_of_split namespaces
          (NamespaceToolContext.split_eq_none (by decide) namespaces)]
        rfl
    rw [hshown]
    constructor
    · intro hsame
      have hname := hsame "name" (by decide)
      rw [hleft, hright] at hname
      exact absurd hname (by decide)
    · intro halike
      exact absurd hempty halike.name
  · have hshown : shownName call.name = call.name := if_neg hempty
    rw [hshown, restoreOutputItem_functionCall, if_neg hsearch,
      if_neg hcustom]
    constructor
    · intro hsame
      have hcallId := hsame "call_id" (by decide)
      rw [get_restoreItem namespaces _ (by decide) (by decide),
        get_restoreItem namespaces _ (by decide) (by decide)] at hcallId
      have hid : callIdOr call.id index = wholeCallId call.id :=
        Json.str.inj (some.inj hcallId)
      exact ⟨(callIds_eq_iff _ _).mp hid, hempty, fun h => hcustom h.1,
        fun h => absurd h hcustom⟩
    · intro halike
      rw [(callIds_eq_iff _ index).mpr halike.id]
      exact sameItem_restoreItem (sameItem_functionCall _ _ _ _ _ _)
        namespaces

/-- One call, its namespace restored on both sides. -/
theorem sameItem_restored_iff (crates : Crates) (context : CodexToolContext)
    (namespaces : NamespaceToolContext) (index : Nat) (call : ChatToolCall) :
    SameItem (streamCallItem crates context namespaces index call)
        (namespaces.restoreItem (restoredCallItem crates context call)) ↔
      TranslatesAlike crates context call := by
  by_cases hcustom : context.isCustom call.name = true
  · have hnative : namespaces.restoreItem
        (restoredCallItem crates context call) =
        restoredCallItem crates context call := by
      rw [restoredCallItem_eq]
      split <;> exact restoreItem_of_type namespaces rfl (by decide)
    rw [hnative]
    exact sameItem_custom_iff hcustom namespaces index
  · by_cases hsearch : context.isToolSearch call.name = true
    · have hnative : namespaces.restoreItem
          (restoredCallItem crates context call) =
          restoredCallItem crates context call := by
        rw [restoredCallItem_eq, if_pos hsearch]
        exact restoreItem_of_type namespaces rfl (by decide)
      rw [hnative]
      exact sameItem_toolSearch_iff hcustom hsearch namespaces index
    · exact sameItem_function_iff hcustom hsearch namespaces index

/-- A call of a tool that is not in a namespace. -/
def Unnamespaced (context : CodexToolContext)
    (namespaces : NamespaceToolContext) (call : ChatToolCall) : Prop :=
  context.isCustom call.name = false →
    context.isToolSearch call.name = false → namespaces.split call.name = none

theorem sameItem_restoredCall_iff (crates : Crates)
    (context : CodexToolContext) (namespaces : NamespaceToolContext)
    (index : Nat) (call : ChatToolCall) :
    SameItem (streamCallItem crates context namespaces index call)
        (restoredCallItem crates context call) ↔
      TranslatesAlike crates context call ∧
        Unnamespaced context namespaces call := by
  by_cases hcustom : context.isCustom call.name = true
  · rw [sameItem_custom_iff hcustom namespaces index]
    exact ⟨fun halike => ⟨halike, by simp [Unnamespaced, hcustom]⟩,
      fun halike => halike.1⟩
  · by_cases hsearch : context.isToolSearch call.name = true
    · rw [sameItem_toolSearch_iff hcustom hsearch namespaces index]
      exact ⟨fun halike => ⟨halike, by simp [Unnamespaced, hsearch]⟩,
        fun halike => halike.1⟩
    · have hplain : Unnamespaced context namespaces call ↔
          namespaces.split call.name = none := by
        simp [Unnamespaced, hcustom, hsearch]
      rw [hplain]
      cases hsplit : namespaces.split call.name with
      | none =>
        have hrestored : namespaces.restoreItem
            (restoredCallItem crates context call) =
            restoredCallItem crates context call := by
          rw [restoredCallItem_eq, if_neg hsearch, if_neg hcustom]
          exact restoreItem_functionCall_of_split namespaces hsplit _ _ _ _
        rw [← hrestored, sameItem_function_iff hcustom hsearch]
        simp
      | some tool =>
        -- Only the stream's item has a namespace.
        have hne : call.name ≠ "" := by
          intro hempty
          rw [hempty, NamespaceToolContext.split_eq_none (by decide)]
            at hsplit
          cases hsplit
        have hshown : shownName call.name = call.name := if_neg hne
        constructor
        · intro hsame
          have hnamespace := hsame "namespace" (by decide)
          rw [restoredCallItem_eq, if_neg hsearch, if_neg hcustom,
            streamCallItem] at hnamespace
          simp only [if_neg hcustom, hshown] at hnamespace
          rw [restoreOutputItem_functionCall, if_neg hsearch,
            if_neg hcustom, get_namespace_restoreItem hsplit] at hnamespace
          cases hnamespace
        · rintro ⟨-, hnone⟩
          cases hnone

end CallItems

/-- The items in front of the tool calls. -/
def frontItems (responseId : String) (message : ChatMessage) : List Json :=
  (if message.reasoning = "" then []
    else [reasoningItem (responseId ++ "_reasoning")
      [StreamEvent.summaryPart message.reasoning]]) ++
  (if ChatSseAdapter.visibleText message = "" then []
    else [completedMessageItem (responseId ++ "_message")
      (if message.calls.isEmpty then "final_answer" else "commentary")
      (ChatSseAdapter.visibleText message)])

theorem frontItems_same :
    List.Forall₂ SameItem (frontItems first message)
      (frontItems second message) := by
  apply rel_append
  · split
    · exact List.Forall₂.nil
    · refine List.Forall₂.cons ?_ List.Forall₂.nil
      intro key hkey
      simp only [reasoningItem, get_cons, if_neg (Ne.symm hkey)]
  · split
    · exact List.Forall₂.nil
    · refine List.Forall₂.cons ?_ List.Forall₂.nil
      intro key hkey
      simp only [completedMessageItem, get_cons, if_neg (Ne.symm hkey)]

theorem map_restoreItem_frontItems :
    (frontItems responseId message).map namespaces.restoreItem =
      frontItems responseId message := by
  have hreasoning (id : String) (summary : List Json) :
      namespaces.restoreItem (reasoningItem id summary) =
        reasoningItem id summary :=
    restoreItem_of_type namespaces rfl (by decide)
  have hmessage (id phase text : String) :
      namespaces.restoreItem (completedMessageItem id phase text) =
        completedMessageItem id phase text :=
    restoreItem_of_type namespaces rfl (by decide)
  rw [frontItems, map_append]
  split <;> split <;> simp [hreasoning, hmessage]

theorem wholeOutput_toJson :
    wholeOutput crates context responseId message.toJson =
      frontItems responseId message ++
        message.calls.map (restoredCallItem crates context) := by
  have hreasoning : chatReasoningText message.toJson =
      if message.reasoning = "" then none else some message.reasoning := by
    obtain ⟨field, reasoning, content, calls⟩ := message
    have hread : chatReasoningText (ChatMessage.toJson
        ⟨field, reasoning, content, calls⟩) =
        (some reasoning).filter (· ≠ "") := by
      cases field <;> rfl
    rw [hread]
    by_cases hempty : reasoning = ""
    · simp [Option.filter, hempty]
    · simp [Option.filter, hempty]
  have hcontent : (message.toJson.get "content").filter (· ≠ .null) =
      some (.str message.content) := by
    obtain ⟨field, reasoning, content, calls⟩ := message
    cases field <;> rfl
  have hcalls : messageCalls message.toJson =
      message.calls.map ChatToolCall.toJson := by
    obtain ⟨field, reasoning, content, calls⟩ := message
    cases field <;> rfl
  have hplain : contentToPlainString crates (.str message.content) =
      message.content := rfl
  rw [wholeOutput, reasoningOutput, hreasoning, messageOutput, hcontent,
    hcalls, frontItems]
  simp only [hplain, List.map_map, isEmpty_map]
  by_cases hempty : message.reasoning = ""
  · simp only [if_pos hempty]
    rfl
  · simp only [if_neg hempty]
    rfl

theorem isActionable_restoredCallItem (call : ChatToolCall) :
    isActionable (restoredCallItem crates context call) = true := by
  rw [restoredCallItem_eq]
  split
  · rfl
  · split <;> rfl

theorem any_isActionable :
    (wholeOutput crates context responseId message.toJson).any isActionable =
      !(ChatSseAdapter.visibleText message = "" && message.calls.isEmpty) := by
  rw [wholeOutput_toJson, any_append, frontItems, any_append]
  have hreasoning (id : String) (summary : List Json) :
      isActionable (reasoningItem id summary) = false := rfl
  have hmessage (id phase text : String) :
      isActionable (completedMessageItem id phase text) = true := rfl
  cases hcalls : message.calls with
  | nil =>
    split <;> split <;> simp_all
  | cons call calls =>
    simp [isActionable_restoredCallItem]

end

/-- The outcome of a response: its status, the error of an empty completion,
and its output items. -/
structure Outcome (response : Json) (failed : Bool) (output : List Json) :
    Prop where
  status : response.get "status" =
    some (.str (if failed then "failed" else "completed"))
  error : response.get "error" = if failed then some emptyCompletion else none
  output : response.get "output" = some (.arr output)

theorem get_withUsage (usage : Option Json) (fields : List (String × Json))
    {key : String} (hkey : key ≠ "usage") :
    (withUsage usage fields).get key = (Json.obj fields).get key := by
  cases usage with
  | none => rfl
  | some usage => rw [withUsage, get_insertField, if_neg hkey]

theorem outcome_wholeResponse (body : Json) (model responseId : String)
    (output : List Json) :
    Outcome (wholeResponse body model responseId output)
      (!output.any isActionable) output := by
  rw [wholeResponse]
  cases output.any isActionable <;>
    constructor <;> rw [get_withUsage _ _ (by decide)] <;> rfl

theorem Outcome.restoreResponse {response : Json} {failed : Bool}
    {output : List Json} (houtcome : Outcome response failed output)
    (namespaces : NamespaceToolContext) :
    Outcome (namespaces.restoreResponse response) failed
      (output.map namespaces.restoreItem) := by
  cases response with
  | obj fields =>
    have hrestored : namespaces.restoreResponse (.obj fields) =
        .obj (Json.insertField "output"
          (.arr (output.map namespaces.restoreItem)) fields) := by
      simp only [NamespaceToolContext.restoreResponse, houtcome.output,
        bind_some, Json.asArr]
    rw [hrestored]
    constructor
    · rw [get_insertField, if_neg (by decide), houtcome.status]
    · rw [get_insertField, if_neg (by decide), houtcome.error]
    · rw [get_insertField, if_pos rfl]
  | null | bool | num | str | arr => cases houtcome.output

/-- Two responses with the same status, the same error and, ids apart, the
same list of output items. -/
structure Agrees (streamed whole : Json) : Prop where
  status : streamed.get "status" = whole.get "status"
  error : streamed.get "error" = whole.get "error"
  output : ∃ items others, streamed.get "output" = some (.arr items) ∧
    whole.get "output" = some (.arr others) ∧
      List.Forall₂ SameItem items others

theorem Outcome.agrees_iff {streamed whole : Json} {failed lost : Bool}
    {items others : List Json} (hstreamed : Outcome streamed failed items)
    (hwhole : Outcome whole lost others) :
    Agrees streamed whole ↔
      failed = lost ∧ List.Forall₂ SameItem items others := by
  constructor
  · intro hagrees
    constructor
    · have hstatus := hagrees.status
      rw [hstreamed.status, hwhole.status] at hstatus
      revert hstatus
      cases failed <;> cases lost <;> decide
    · obtain ⟨items', others', hitems, hothers, hsame⟩ := hagrees.output
      rw [hstreamed.output] at hitems
      rw [hwhole.output] at hothers
      obtain rfl := Json.arr.inj (some.inj hitems)
      obtain rfl := Json.arr.inj (some.inj hothers)
      exact hsame
  · rintro ⟨rfl, hsame⟩
    exact ⟨hstreamed.status.trans hwhole.status.symm,
      hstreamed.error.trans hwhole.error.symm,
      items, others, hstreamed.output, hwhole.output, hsame⟩

theorem forall₂_append_iff {relation : Json → Json → Prop}
    {front front' back back' : List Json}
    (hlength : front.length = front'.length) :
    List.Forall₂ relation (front ++ back) (front' ++ back') ↔
      List.Forall₂ relation front front' ∧
        List.Forall₂ relation back back' := by
  induction front generalizing front' with
  | nil =>
    cases front' with
    | nil => simp
    | cons _ _ => cases hlength
  | cons item front ih =>
    cases front' with
    | nil => cases hlength
    | cons item' front' =>
      simp only [cons_append, List.forall₂_cons,
        ih (Nat.succ.inj hlength), and_assoc]

/-- A message without calls on which both translations decide alike whether
it is empty: it shows more than blanks, or it has neither text nor
reasoning. -/
def EmptyAlike (message : ChatMessage) : Prop :=
  message.calls = [] →
    isBlank (ChatSseAdapter.visibleText message) = false ∨
      (ChatSseAdapter.visibleText message = "" ∧ message.reasoning = "")

section Translations

open ChatSseAdapter

variable {message : ChatMessage} {adapter : ChatSseAdapter}

/-- The output items of a streamed message. -/
def streamedOutput (crates : Crates) (context : CodexToolContext)
    (namespaces : NamespaceToolContext) (responseId : String)
    (message : ChatMessage) : List Json :=
  if isBlank (visibleText message) && message.calls.isEmpty then []
  else
    frontItems responseId message ++
      message.calls.zipIdx.map fun call =>
        streamCallItem crates context namespaces call.2 call.1

theorem ChatSseAdapter.Holds.isEmpty_toolCalls
    (hholds : Holds message adapter) :
    adapter.toolCalls.isEmpty = message.calls.isEmpty := by
  have hlength := congrArg List.length hholds.calls
  simp only [length_map, length_zipIdx] at hlength
  rw [Bool.eq_iff_iff, isEmpty_iff_length_eq_zero,
    isEmpty_iff_length_eq_zero, hlength]

theorem ChatSseAdapter.Holds.completedOutput (crates : Crates)
    (hholds : Holds message adapter) :
    completedOutput crates adapter =
      frontItems adapter.responseId message ++
        message.calls.zipIdx.map fun call =>
          streamCallItem crates adapter.toolContext adapter.namespaceContext
            call.2 call.1 := by
  have hcalls : adapter.toolCalls.map
      (fun entry => completedCallItem crates adapter entry.1 entry.2) =
      (adapter.toolCalls.map fun entry => (entry.1, entry.2.parts)).map
        fun entry => streamCallItem crates adapter.toolContext
          adapter.namespaceContext entry.1 entry.2 := by
    rw [List.map_map]
    rfl
  rw [ChatSseAdapter.completedOutput, hcalls, hholds.calls, List.map_map,
    frontItems, hholds.reasoning, hholds.text, phase,
    hholds.isEmpty_toolCalls]
  rfl

/-- The response a streamed message ends on. -/
theorem outcome_terminalEvent (crates : Crates) (now : Nat)
    (hholds : Holds message adapter) :
    ∃ response,
      (terminalEvent crates now adapter).terminalResponse = some response ∧
      Outcome response (isBlank (visibleText message) && message.calls.isEmpty)
        (streamedOutput crates adapter.toolContext adapter.namespaceContext
          adapter.responseId message) := by
  rw [terminalEvent, hholds.isEmpty_toolCalls, hholds.text, streamedOutput]
  cases isBlank (visibleText message) && message.calls.isEmpty with
  | true =>
    refine ⟨adapter.failedResponse, rfl, ?_⟩
    constructor <;>
      rw [failedResponse, get_withUsage _ _ (by decide)] <;> rfl
  | false =>
    refine ⟨adapter.completedResponse crates now, rfl, ?_⟩
    rw [if_neg (by decide), ← hholds.completedOutput]
    constructor <;>
      rw [completedResponse, get_withUsage _ _ (by decide)] <;> rfl

/-- Where the two outcomes are the same, given where the items of a call
are. -/
theorem outcomes_same_iff {crates : Crates} {context : CodexToolContext}
    {namespaces : NamespaceToolContext} {item : ChatToolCall → Json}
    {alike : ChatToolCall → Prop}
    (hitem : ∀ index call,
      SameItem (streamCallItem crates context namespaces index call)
        (item call) ↔ alike call)
    (first second : String) (message : ChatMessage) :
    ((isBlank (visibleText message) && message.calls.isEmpty) =
        (decide (visibleText message = "") && message.calls.isEmpty) ∧
      List.Forall₂ SameItem
        (streamedOutput crates context namespaces first message)
        (frontItems second message ++ message.calls.map item)) ↔
      EmptyAlike message ∧ ∀ call ∈ message.calls, alike call := by
  have hfront := frontItems_same first second message
  rw [streamedOutput]
  by_cases hcalls : message.calls = []
  · by_cases hblank : isBlank (visibleText message) = true
    · by_cases htext : visibleText message = ""
      · have hitems : frontItems second message = [] ↔
            message.reasoning = "" := by
          simp [frontItems, htext]
        rw [htext] at hblank
        simp [EmptyAlike, hcalls, htext, hblank, hitems]
      · simp [EmptyAlike, hcalls, hblank, htext]
    · rw [Bool.not_eq_true] at hblank
      have htext : visibleText message ≠ "" := by
        intro hempty
        rw [hempty] at hblank
        exact absurd hblank (by decide)
      simp [EmptyAlike, hcalls, hblank, htext, hfront]
  · have hempty : message.calls.isEmpty = false := by
      simpa using hcalls
    have hright : message.calls.map item =
        message.calls.zipIdx.map fun call => item call.1 := by
      conv_lhs => rw [← zipIdx_map_fst 0 message.calls, List.map_map]
      rfl
    simp only [hempty, Bool.and_false, if_neg Bool.false_ne_true, true_and,
      EmptyAlike, hcalls, false_implies]
    rw [forall₂_append_iff hfront.length_eq, hright,
      List.forall₂_map_left_iff, List.forall₂_map_right_iff,
      List.forall₂_same]
    simp only [hfront, true_and, hitem]
    constructor
    · intro hall call hcall
      obtain ⟨index, hindex, rfl⟩ := mem_iff_getElem.mp hcall
      exact hall (message.calls[index], index)
        (mk_mem_zipIdx_iff_getElem?.mpr (getElem?_eq_getElem hindex))
    · intro hall call hcall
      exact hall call.1 (fst_mem_of_mem_zipIdx hcall)

/-- The two translations of a message agree exactly when both take it for
empty alike and restore each of its calls alike.  A namespaced name is
restored by the streaming adapter itself and by the caller of the whole
translation, so it counts only as long as that caller has not run. -/
theorem translations_agree_iff {crates : Crates}
    (hreject : RejectsDone crates) (model : String) (request : Json)
    (millis : Nat) (message : ChatMessage) {chunks : List ChatChunk}
    (hsplit : Splits message chunks) {data : List (Clock × String)}
    (hdata : Carry crates data chunks) (clock : Clock) (id : String)
    (created : Nat) :
    ∃ streamed whole,
      lastResponse (run crates (newWithRequest model request millis)
        (pushes data ++ [.pushData clock "[DONE]"])).2 = some streamed ∧
      chatResponseToResponsesWithContext crates (message.body id created)
        model (CodexToolContext.fromRequest request) = .ok whole ∧
      (Agrees streamed whole ↔
        EmptyAlike message ∧ ∀ call ∈ message.calls,
          TranslatesAlike crates (CodexToolContext.fromRequest request) call ∧
            Unnamespaced (CodexToolContext.fromRequest request)
              (NamespaceToolContext.fromRequest request) call) ∧
      (Agrees streamed
          ((NamespaceToolContext.fromRequest request).restoreResponse whole) ↔
        EmptyAlike message ∧ ∀ call ∈ message.calls,
          TranslatesAlike crates (CodexToolContext.fromRequest request)
            call) := by
  have hfed := fed_run hreject hdata (newWithRequest model request millis)
    rfl List.Pairwise.nil
  have hholds := holds_closing hfed hsplit rfl rfl clock
  have hsame := SameStream.beforeClose clock
    { (run crates (newWithRequest model request millis) (pushes data)).1 with
      finished := true }
  obtain ⟨streamed, hstreamed, houtcome⟩ :=
    outcome_terminalEvent crates clock.completed hholds
  have htools : ((run crates (newWithRequest model request millis)
      (pushes data)).1.closing clock).toolContext =
      CodexToolContext.fromRequest request :=
    hsame.toolContext.trans hfed.toolContext
  have hnamespaces : ((run crates (newWithRequest model request millis)
      (pushes data)).1.closing clock).namespaceContext =
      NamespaceToolContext.fromRequest request :=
    hsame.namespaceContext.trans hfed.namespaceContext
  rw [htools, hnamespaces] at houtcome
  have hwhole := outcome_wholeResponse (message.body id created) model id
    (wholeOutput crates (CodexToolContext.fromRequest request) id
      message.toJson)
  rw [any_isActionable, Bool.not_not] at hwhole
  refine ⟨streamed, _, ?_, rfl, ?_, ?_⟩
  · rw [run_append]
    simp only [run, call, append_nil]
    exact (lastResponse_done crates clock hfed.finished _).trans hstreamed
  · refine (houtcome.agrees_iff hwhole).trans ?_
    rw [wholeOutput_toJson]
    exact outcomes_same_iff (sameItem_restoredCall_iff crates _ _) _ _ _
  · refine (houtcome.agrees_iff (hwhole.restoreResponse _)).trans ?_
    rw [wholeOutput_toJson, map_append, map_restoreItem_frontItems,
      List.map_map]
    exact outcomes_same_iff (sameItem_restored_iff crates _ _) _ _ _

end Translations

namespace PatchDelimiters

open ChatSseAdapter

variable (stars : String)

/-- A patch; models put `stars` behind its two delimiters or leave them out. -/
def patch : String :=
  "*** Begin Patch" ++ stars ++ "\n*** End Patch" ++ stars

/-- The arguments of a call of `apply_patch`. -/
def argumentsText : String :=
  "\x7b\"patch\":\"*** Begin Patch" ++ stars ++ "\\n*** End Patch" ++ stars ++
    "\"\x7d"

def patchCall : ChatToolCall :=
  ⟨"call_1", "apply_patch", argumentsText stars⟩

def message : ChatMessage :=
  { calls := [patchCall stars] }

/-- The call in one piece. -/
def chunk : ChatChunk :=
  { calls := [⟨0, some "call_1", some "apply_patch", argumentsText stars⟩] }

def chunkText : String :=
  "\x7b\"choices\":[\x7b\"index\":0,\"delta\":\x7b\"tool_calls\":[\x7b" ++
    "\"index\":0,\"id\":\"call_1\",\"function\":\x7b\"name\":" ++
    "\"apply_patch\",\"arguments\":\"\x7b\\\"patch\\\":" ++
    "\\\"*** Begin Patch" ++ stars ++ "\\\\n*** End Patch" ++ stars ++
    "\\\"\x7d\"\x7d\x7d]\x7d,\"finish_reason\":null\x7d]\x7d"

/-- JSON and SHA-256 on the texts of the call. -/
def crates : Crates where
  fromStr text :=
    if text = chunkText stars then some (chunk stars).toJson
    else if text = argumentsText stars then
      some (.obj [("patch", .str (patch stars))])
    else none
  toStr _ := ""
  sha256 text :=
    if text = "call_1" then
      [116, 25, 111, 231, 46, 76, 220, 19, 92, 16, 51, 224, 90, 46, 2, 12,
        163, 108, 15, 54, 151, 192, 133, 61, 109, 83, 86, 123, 81, 217, 245,
        143]
    else if text = "fc_vellum_74196fe72e4cdc135c1033e0" then
      [134, 145, 35, 91, 4, 31, 57, 58, 105, 248, 204, 131, 183, 75, 212,
        235, 231, 43, 183, 131, 216, 231, 108, 246, 19, 140, 121, 160, 186,
        217, 192, 157]
    else []

/-- A request that declares `apply_patch` as a custom tool. -/
def request : Json :=
  .obj [("tools", .arr [.obj [("type", .str "custom"),
    ("name", .str "apply_patch")]])]

def clock : Clock := ⟨1, 1, 1⟩

/-- The response the stream of the call ends on. -/
def streamed : Option Json :=
  lastResponse (run (crates stars) (newWithRequest "qwen" request 1)
    (pushes [(clock, chunkText stars)] ++ [.pushData clock "[DONE]"])).2

/-- The response of the whole translation. -/
def whole : Except String Json :=
  chatResponseToResponsesWithContext (crates stars)
    ((message stars).body "chatcmpl-1" 1) "qwen"
    (CodexToolContext.fromRequest request)

/-- The input of the first output item. -/
def firstInput (response : Json) : Option Json :=
  (((response.get "output").bind Json.asArr).bind List.head?).bind
    (Json.get "input")

theorem firstInput_eq {streamed whole : Json}
    (hagrees : Agrees streamed whole) :
    firstInput streamed = firstInput whole := by
  obtain ⟨items, others, hitems, hothers, hsame⟩ := hagrees.output
  rw [firstInput, hitems, firstInput, hothers]
  cases hsame with
  | nil => rfl
  | cons hhead _ => exact hhead "input" (by decide)

variable (stars : String)

theorem fromStr_chunkText :
    (crates stars).fromStr (chunkText stars) = some (chunk stars).toJson :=
  if_pos rfl

theorem chunkText_object : ∃ rest, (chunkText stars).toList = '\x7b' :: rest :=
  ⟨_, Text.toList_append_head (Text.toList_append_head
    (Text.toList_append_head (Text.toList_append_head
      (Text.toList_append_head (Text.toList_append_head
        (Text.toList_append_head String.toList_ofList _) _) _) _) _) _) _⟩

theorem argumentsText_object :
    ∃ rest, (argumentsText stars).toList = '\x7b' :: rest :=
  ⟨_, Text.toList_append_head (Text.toList_append_head
    (Text.toList_append_head (Text.toList_append_head
      String.toList_ofList _) _) _) _⟩

/-- The stream without a look at the text of its chunk. -/
theorem streamed_eq :
    streamed stars =
      let chunked := numbered (pushDelta (crates stars) clock
        (newWithRequest "qwen" request 1)
        (ChatDelta.read (crates stars) (chunk stars).toJson))
      let ended := call (crates stars) chunked.1 (.pushData clock "[DONE]")
      lastResponse (chunked.2 ++ (ended.2 ++ [])) := by
  obtain ⟨rest, htext⟩ := chunkText_object stars
  rw [streamed, pushes, map_singleton, singleton_append, run,
    call_pushData_object rfl htext (fromStr_chunkText stars)]
  rfl

/-- Starred delimiters: the stream passes them on, the whole translation
drops the stars. -/
theorem stream_keeps_stars :
    ∃ response other, streamed " ***" = some response ∧
      whole " ***" = .ok other ∧ ¬ Agrees response other := by
  have hresponse : (streamed " ***").bind firstInput =
      some (.str (patch " ***")) := by
    rw [streamed_eq]
    decide
  have hother : ((whole " ***").toOption).bind firstInput =
      some (.str (patch "")) := by
    decide
  obtain ⟨response, hstreamed, hinput⟩ := bind_eq_some_iff.mp hresponse
  cases hwhole : whole " ***" with
  | error _ =>
    rw [hwhole] at hother
    cases hother
  | ok other =>
    rw [hwhole] at hother
    refine ⟨response, other, hstreamed, rfl, ?_⟩
    intro hagrees
    have hsame := firstInput_eq hagrees
    have hdropped : firstInput other = some (.str (patch "")) := hother
    rw [hinput, hdropped] at hsame
    exact absurd hsame (by decide)

theorem rejectsDone_crates : RejectsDone (crates "") := by
  intro text hdone
  obtain ⟨_, hchunkText⟩ := chunkText_object ""
  obtain ⟨_, hargumentsText⟩ := argumentsText_object ""
  have hchunk : text ≠ chunkText "" := by
    rintro rfl
    exact not_done_of_object hchunkText hdone
  have harguments : text ≠ argumentsText "" := by
    rintro rfl
    exact not_done_of_object hargumentsText hdone
  exact (if_neg hchunk).trans (if_neg harguments)

theorem splits_chunk : Splits (message "") [chunk ""] := by
  refine ⟨by decide, by decide, ?_, ?_⟩
  · intro index call hcall
    cases index with
    | zero =>
      obtain rfl := some.inj hcall
      refine ⟨⟨_, mem_singleton_self _, rfl⟩, ?_, by decide, by decide⟩
      intro piece hpiece id hid
      obtain rfl := mem_singleton.mp hpiece
      exact Or.inr (some.inj hid).symm
    | succ index => cases hcall
  · intro index hnone
    cases index with
    | zero => cases hnone
    | succ index => rfl

/-- Without the stars both translations give the same response. -/
theorem plain_delimiters_agree :
    ∃ response other, streamed "" = some response ∧
      whole "" = .ok other ∧ Agrees response other := by
  have hcarry : Carry (crates "") [(clock, chunkText "")] [chunk ""] :=
    List.Forall₂.cons (fromStr_chunkText "") List.Forall₂.nil
  obtain ⟨response, other, hstreamed, hwhole, hagrees, -⟩ :=
    translations_agree_iff rejectsDone_crates "qwen" request 1 (message "")
      splits_chunk hcarry clock "chatcmpl-1" 1
  refine ⟨response, other, hstreamed, hwhole, hagrees.mpr ⟨?_, ?_⟩⟩
  · intro hcalls
    cases hcalls
  · intro call hcall
    obtain rfl := mem_singleton.mp hcall
    refine ⟨⟨by decide, by decide, by decide, fun _ _ => by decide⟩, ?_⟩
    intro hcustom
    exact absurd hcustom (by decide)

end PatchDelimiters

end Vellum.Proxy
