/-
The arguments of a streamed tool call.  The adapter joins what
`tool_arguments_text` makes of every fragment, and that text is `{}` for a
fragment without arguments: the joined text is what the provider sent on the
calls all of whose fragments carry arguments, and on no others.
-/
import Vellum.Proxy.ChatAgreement
import Vellum.Proxy.ChatOutputOrder

namespace Vellum.Proxy

open List Option StreamEvent

/-- Texts with a default where one is missing. -/
def withDefault (fallback : String) (texts : List (Option String)) :
    List String :=
  texts.map fun text => text.getD fallback

theorem length_join_reduceOption_le (fallback : String)
    (texts : List (Option String)) :
    (String.join texts.reduceOption).length ≤
      (String.join (withDefault fallback texts)).length := by
  induction texts with
  | nil => exact Nat.le_refl _
  | cons text rest ih =>
    cases text with
    | none =>
      rw [reduceOption_cons_of_none, withDefault, map_cons,
        String.join_cons, String.length_append]
      exact Nat.le_trans ih (Nat.le_add_left _ _)
    | some text =>
      rw [reduceOption_cons_of_some, withDefault, map_cons,
        String.join_cons, String.join_cons, String.length_append,
        String.length_append]
      exact Nat.add_le_add_left ih _

/-- A default that is no empty text is seen wherever it is used. -/
theorem join_withDefault_iff {fallback : String} (hfallback : fallback ≠ "")
    (texts : List (Option String)) :
    String.join (withDefault fallback texts) =
        String.join texts.reduceOption ↔
      ∀ text ∈ texts, text.isSome = true := by
  induction texts with
  | nil => exact ⟨by rintro _ _ ⟨⟩, fun _ => rfl⟩
  | cons text rest ih =>
    rw [forall_mem_cons]
    cases text with
    | none =>
      constructor
      · intro heq
        have hlength := congrArg String.length heq
        have hle := length_join_reduceOption_le fallback rest
        have hpositive : 0 < fallback.length :=
          Nat.pos_of_ne_zero fun hzero =>
            hfallback (String.length_eq_zero_iff.mp hzero)
        rw [reduceOption_cons_of_none, withDefault, map_cons,
          String.join_cons, String.length_append] at hlength
        rw [withDefault] at hle
        rw [getD_none] at hlength
        omega
      · intro hall
        cases hall.1
    | some text =>
      rw [reduceOption_cons_of_some, withDefault, map_cons,
        String.join_cons, String.join_cons, getD_some,
        String.append_right_inj]
      exact ih.trans ⟨fun hrest => ⟨rfl, hrest⟩, And.right⟩

/-- The fragments of tool calls in a chunk, as the provider sent them. -/
def rawCalls (value : Json) : List Json :=
  (((((value.pointer ["choices", "0", "delta"]).getD (.obj [])).get
    "tool_calls").bind Json.asArr).getD [])

/-- The index of the call that a fragment belongs to. -/
def rawIndex (call : Json) : Nat := ((call.get "index").bind Json.asU64).getD 0

/-- The arguments that a fragment carries: none if they are absent or null. -/
def sentArguments (crates : Crates) (call : Json) : Option String :=
  match call.pointer ["function", "arguments"] with
  | some (.str arguments) => some arguments
  | some .null | none => none
  | some arguments => some (crates.toStr arguments)

section

variable (crates : Crates)

theorem toolArgumentsText_eq (call : Json) :
    toolArgumentsText crates (call.pointer ["function", "arguments"]) =
      (sentArguments crates call).getD "{}" := by
  rw [sentArguments]
  cases call.pointer ["function", "arguments"] with
  | none => rfl
  | some arguments => cases arguments <;> rfl

/-- The fragments of the call with a provider index. -/
def fragmentsAt (index : Nat) (received : List Json) : List Json :=
  received.filter fun call => rawIndex call = index

/-- What the fragments of a call carry, in the order of their arrival. -/
def argumentsAt (crates : Crates) (index : Nat) (received : List Json) :
    List (Option String) :=
  (fragmentsAt index received).map (sentArguments crates)

theorem argumentsAt_append (index : Nat) (front back : List Json) :
    argumentsAt crates index (front ++ back) =
      argumentsAt crates index front ++ argumentsAt crates index back := by
  rw [argumentsAt, fragmentsAt, filter_append, map_append]
  rfl

/-- The fragments of a chunk add their texts, and the default for those
without one. -/
theorem arguments_gatherCall (call : Option ChatToolCall)
    (fragments : List CallFragment) :
    ((gatherCall call fragments).getD {}).arguments =
      (call.getD {}).arguments ++
        String.join (fragments.map CallFragment.arguments) := by
  induction fragments generalizing call with
  | nil => exact (String.append_empty).symm
  | cons fragment fragments ih =>
    have hfirst : gatherCall call (fragment :: fragments) =
        gatherCall (some ((call.getD {}).extend fragment)) fragments := rfl
    rw [hfirst, ih, map_cons, String.join_cons, ← String.append_assoc]
    rfl

theorem arguments_fragments (index : Nat) (value : Json) :
    (((ChatDelta.read crates value).calls.filter fun fragment =>
        fragment.index = index).map CallFragment.arguments) =
      withDefault "{}" (argumentsAt crates index (rawCalls value)) := by
  have hread : (ChatDelta.read crates value).calls =
      (rawCalls value).map (CallFragment.read crates) := rfl
  rw [hread, List.filter_map, List.map_map, withDefault, argumentsAt,
    List.map_map]
  apply map_congr_left
  intro call _
  exact toolArgumentsText_eq crates call

end

namespace ChatSseAdapter

/-- The fragments of tool calls that a call of the adapter brings. -/
def received (crates : Crates) (adapter : ChatSseAdapter) :
    ChatCall → List Json
  | .pushData _ data =>
    if adapter.finished then []
    else if Text.trim data.toList = "[DONE]".toList then []
    else ((crates.fromStr data).map rawCalls).getD []
  | .finishIfTerminal _ => []

def receivedOf (crates : Crates) (adapter : ChatSseAdapter) :
    List ChatCall → List Json
  | [] => []
  | next :: calls =>
    received crates adapter next ++
      receivedOf crates (call crates adapter next).1 calls

/-- The adapter and the fragments it has received. -/
structure Gathers (crates : Crates) (fragments : List Json)
    (adapter : ChatSseAdapter) : Prop where
  sorted : OrderedMap.Sorted adapter.toolCalls
  arguments : ∀ index, ((adapter.callAt index).getD {}).arguments =
    String.join (withDefault "{}" (argumentsAt crates index fragments))

section

variable {crates : Crates} {fragments : List Json} {adapter : ChatSseAdapter}

theorem gathers_new (crates : Crates) (model : String)
    (toolContext : CodexToolContext)
    (namespaceContext : NamespaceToolContext) (millis : Nat) :
    Gathers crates []
      (newWithContext model toolContext namespaceContext millis) :=
  ⟨List.Pairwise.nil, fun _ => rfl⟩

section

variable (hgathers : Gathers crates fragments adapter)
include hgathers

theorem Gathers.of_toolCalls {after : ChatSseAdapter}
    (hcalls : after.toolCalls = adapter.toolCalls) :
    Gathers crates (fragments ++ []) after := by
  have hat : ∀ index, after.callAt index = adapter.callAt index := by
    intro index
    rw [callAt, hcalls, callAt]
  rw [append_nil]
  constructor
  · rw [hcalls]
    exact hgathers.sorted
  · intro index
    rw [hat, hgathers.arguments]

theorem Gathers.delta (clock : Clock) (value : Json) :
    Gathers crates (fragments ++ rawCalls value)
      (pushDelta crates clock adapter (ChatDelta.read crates value)).1 := by
  obtain ⟨hsorted, hcalls⟩ := callAt_pushDelta crates clock hgathers.sorted
    (ChatDelta.read crates value)
  constructor
  · exact hsorted
  · intro index
    rw [hcalls, arguments_gatherCall, hgathers.arguments, arguments_fragments,
      ← String.join_append, argumentsAt_append, withDefault, withDefault,
      withDefault, map_append]

theorem Gathers.call (next : ChatCall) :
    Gathers crates (fragments ++ received crates adapter next)
      (call crates adapter next).1 := by
  have hfinish : ∀ clock, (numbered (finish crates clock
      { adapter with finished := true })).1.toolCalls = adapter.toolCalls := by
    intro clock
    rw [numbered, finish]
    exact toolCalls_beforeClose clock { adapter with finished := true }
  cases next with
  | pushData clock data =>
    rw [received, ChatSseAdapter.call, pushData]
    split
    · exact hgathers.of_toolCalls rfl
    · split
      · exact hgathers.of_toolCalls (hfinish clock)
      · cases crates.fromStr data with
        | none => exact hgathers.of_toolCalls rfl
        | some value =>
          obtain ⟨hsorted, harguments⟩ := hgathers.delta clock value
          exact ⟨hsorted, harguments⟩
  | finishIfTerminal clock =>
    rw [received, ChatSseAdapter.call, finishIfTerminal]
    split
    · exact hgathers.of_toolCalls rfl
    · exact hgathers.of_toolCalls (hfinish clock)

theorem Gathers.run (calls : List ChatCall) :
    Gathers crates (fragments ++ receivedOf crates adapter calls)
      (run crates adapter calls).1 := by
  induction calls generalizing fragments adapter with
  | nil => exact hgathers.of_toolCalls rfl
  | cons next calls ih =>
    rw [receivedOf, ← append_assoc]
    exact ih (hgathers.call next)

end

/-- A call that is reported as a function call. -/
structure IsFunctionCall (context : CodexToolContext) (name : String) :
    Prop where
  notCustom : ¬ context.isCustom name = true
  notToolSearch : ¬ context.isToolSearch name = true
  notShownCustom : ¬ context.isCustom (shownName name) = true

/-- The arguments of a call at the end of its stream: in the
`output_item.done` event of its output index and at its position of the
completed response. -/
structure Reports (events : List StreamEvent) (response : Json)
    (outputIndex position : Nat) (arguments : String) : Prop where
  done : ∃ item, .outputItemDone outputIndex item ∈ events ∧
    item.get "arguments" = some (.str arguments)
  listed : ∃ output item, response.get "output" = some (.arr output) ∧
    output[position]? = some item ∧
    item.get "arguments" = some (.str arguments)

theorem get_arguments_functionCall (namespaces : NamespaceToolContext)
    (id callId name arguments status : String) :
    (namespaces.restoreItem (functionCallItem id callId name arguments
      status)).get "arguments" = some (.str arguments) := by
  rw [get_restoreItem _ _ (by decide) (by decide)]
  rfl

variable {call : StreamToolCall} {index : Nat}

theorem mem_callDone (crates : Crates)
    (hfunction : IsFunctionCall adapter.toolContext call.name) :
    ∃ item, .outputItemDone call.outputIndex item ∈
        callDone crates adapter call ∧
      item.get "arguments" = some (.str call.arguments) := by
  rw [callDone, if_neg hfunction.notCustom, if_neg hfunction.notToolSearch]
  exact ⟨_, mem_cons_of_mem _ mem_cons_self,
    get_arguments_functionCall _ _ _ _ _ _⟩

theorem get_arguments_completedCallItem (crates : Crates) (index : Nat)
    (hfunction : IsFunctionCall adapter.toolContext call.name) :
    (completedCallItem crates adapter index call).get "arguments" =
      some (.str call.arguments) := by
  have hsearch : ¬ adapter.toolContext.isToolSearch (shownName call.name) =
      true := by
    rw [shownName]
    split
    · rw [isToolSearch_unknown]
      exact Bool.false_ne_true
    · exact hfunction.notToolSearch
  rw [completedCallItem, if_neg hfunction.notCustom,
    restoreOutputItem_functionCall, if_neg hsearch,
    if_neg hfunction.notShownCustom]
  exact get_arguments_functionCall _ _ _ _ _ _

theorem eq_of_nodup_filterMap {view : StreamEvent → Option Nat}
    {events : List StreamEvent} (hnodup : (events.filterMap view).Nodup)
    {left right : StreamEvent} (hleft : left ∈ events) (hright : right ∈ events)
    (hleftView : view left = some index)
    (hrightView : view right = some index) : left = right := by
  rw [List.Nodup, pairwise_filterMap] at hnodup
  by_contra hne
  have : Std.Symm fun first second => ∀ value, view first = some value →
      ∀ other, view second = some other → value ≠ other :=
    ⟨fun first second hfar value hvalue other hother heq =>
      hfar other hother value hvalue heq.symm⟩
  exact hnodup.forall hleft hright hne index hleftView index hrightView rfl

/-- Every output index is closed by one event. -/
theorem Tracked.done_unique {front : List StreamEvent}
    (htracked : Tracked front adapter) (crates : Crates) (now : Nat)
    {first second : Json}
    (hfirst : .outputItemDone index first ∈
      front ++ closeItems crates now adapter)
    (hsecond : .outputItemDone index second ∈
      front ++ closeItems crates now adapter) : first = second := by
  obtain ⟨body, hbody, -, hdone⟩ := @closeItems_spec adapter crates now
  have hnodup : (body.filterMap doneIndex).Nodup := by
    rw [hdone, htracked.indexes.nodup_iff]
    exact nodup_range
  have hin : ∀ item, .outputItemDone index item ∈
      front ++ closeItems crates now adapter →
      .outputItemDone index item ∈ body := by
    intro item hmem
    rw [hbody, mem_append, mem_append, mem_singleton] at hmem
    rcases hmem with hold | hin | hlast
    · cases htracked.unclosed _ hold
    · exact hin
    · rw [terminalEvent] at hlast
      split at hlast <;> cases hlast
  have heq := eq_of_nodup_filterMap hnodup (hin first hfirst)
    (hin second hsecond) rfl rfl
  cases heq
  rfl

/-- Both ends of the stream report the text that was gathered. -/
theorem reports_iff {front : List StreamEvent}
    (htracked : Tracked front adapter) (crates : Crates) (now : Nat)
    {position : Nat}
    (hcall : OrderedMap.lookup index adapter.toolCalls = some call)
    (hposition : adapter.outputSlots[position]? = some (.call index))
    (hfunction : IsFunctionCall adapter.toolContext call.name)
    (arguments : String) :
    Reports (front ++ closeItems crates now adapter)
        (adapter.completedResponse crates now) call.outputIndex position
        arguments ↔
      call.arguments = arguments := by
  obtain ⟨item, hmem, hitem⟩ := mem_callDone crates hfunction
  have hdone : .outputItemDone call.outputIndex item ∈
      front ++ closeItems crates now adapter := by
    apply mem_append_right
    rw [closeItems, mem_append, mem_append, mem_flatMap]
    exact Or.inl (Or.inr ⟨_, OrderedMap.mem_of_lookup hcall, hmem⟩)
  constructor
  · rintro ⟨⟨other, hother, harguments⟩, -⟩
    rw [htracked.done_unique crates now hother hdone, hitem] at harguments
    exact Json.str.inj (some.inj harguments)
  · rintro rfl
    have hlisted := get_arguments_completedCallItem crates index hfunction
    refine ⟨⟨item, hdone, hitem⟩, adapter.completedOutput crates,
      completedCallItem crates adapter index call, ?_, ?_, hlisted⟩
    · exact get_output_completedResponse crates now
    · rw [completedOutput_eq crates htracked.sorted, getElem?_map,
        hposition, map_some, slotItem, hcall]

/-- The gathered arguments of every call, and what both ends of the stream
report for a function call, are the texts that the provider sent, joined in
the order of their arrival, exactly when every fragment of the call carries
arguments. -/
theorem arguments_as_sent_iff (crates : Crates) (model : String)
    (toolContext : CodexToolContext)
    (namespaceContext : NamespaceToolContext) (millis : Nat)
    (calls : List ChatCall) {response : Json}
    (hcompleted : .completed response ∈ (run crates (newWithContext model
      toolContext namespaceContext millis) calls).2.map NumberedEvent.event)
    {index position : Nat} {call : StreamToolCall}
    (hcall : OrderedMap.lookup index (run crates (newWithContext model
      toolContext namespaceContext millis) calls).1.toolCalls = some call)
    (hposition : (run crates (newWithContext model toolContext
      namespaceContext millis) calls).1.outputSlots[position]? =
        some (.call index)) :
    let adapter := newWithContext model toolContext namespaceContext millis
    let events := (run crates adapter calls).2.map NumberedEvent.event
    let fragments := fragmentsAt index (receivedOf crates adapter calls)
    let sent := String.join (fragments.filterMap (sentArguments crates))
    let complete := ∀ fragment ∈ fragments,
      (sentArguments crates fragment).isSome = true
    (call.arguments = sent ↔ complete) ∧
      (IsFunctionCall (run crates adapter calls).1.toolContext call.name →
        (Reports events response call.outputIndex position sent ↔
          complete)) := by
  intro adapter events fragments sent complete
  have hgathers := (gathers_new crates model toolContext namespaceContext
    millis).run calls
  obtain ⟨front, now, htracked, hevents, rfl⟩ := ((ended_new crates model
    toolContext namespaceContext millis).run calls).completes hcompleted
  have hgathered := hgathers.arguments index
  rw [callAt, hcall, map_some, getD_some, nil_append]
    at hgathered
  have hsent : sent = String.join (argumentsAt crates index
      (receivedOf crates adapter calls)).reduceOption := by
    rw [argumentsAt, List.reduceOption, filterMap_map]
    rfl
  have hexact : call.arguments = sent ↔ complete := by
    have hparts : call.arguments = call.parts.arguments := rfl
    rw [hparts, hgathered, hsent, join_withDefault_iff (by decide), argumentsAt,
      List.forall_mem_map]
  refine ⟨hexact, ?_⟩
  intro hfunction
  rw [← hexact, ← reports_iff htracked crates now hcall hposition hfunction]
  rw [nil_append] at hevents
  exact Iff.of_eq (congrArg (fun events => Reports events _ _ _ sent) hevents)

end

namespace SplitCall

def beginText : String :=
  "\x7b\"choices\":[\x7b\"delta\":\x7b\"tool_calls\":[" ++
    "\x7b\"index\":0,\"id\":\"fc_1\",\"function\":\x7b\"name\":\"run\"\x7d\x7d]\x7d\x7d]\x7d"

def bringText : String :=
  "\x7b\"choices\":[\x7b\"delta\":\x7b\"tool_calls\":[" ++
    "\x7b\"index\":0,\"function\":\x7b\"arguments\":\"[1]\"\x7d\x7d]\x7d\x7d]\x7d"

def wholeText : String :=
  "\x7b\"choices\":[\x7b\"delta\":\x7b\"tool_calls\":[" ++
    "\x7b\"index\":0,\"id\":\"fc_1\",\"function\":\x7b" ++
    "\"name\":\"run\",\"arguments\":\"[1]\"\x7d\x7d]\x7d\x7d]\x7d"

/-- A chunk with one fragment of a call. -/
def chunk (fields : List (String × Json)) : Json :=
  .obj [("choices", .arr [.obj [("delta", .obj [("tool_calls",
    .arr [.obj (("index", .nat 0) :: fields)])])]])]

/-- JSON on the texts above. -/
def crates : Crates where
  fromStr text :=
    if text = beginText then
      some (chunk [("id", .str "fc_1"),
        ("function", .obj [("name", .str "run")])])
    else if text = bringText then
      some (chunk [("function", .obj [("arguments", .str "[1]")])])
    else if text = wholeText then
      some (chunk [("id", .str "fc_1"),
        ("function", .obj [("name", .str "run"), ("arguments", .str "[1]")])])
    else none
  toStr _ := ""
  sha256 _ := []

/-- The call in two fragments: its id and its name, then its arguments. -/
def split : List String := [beginText, bringText]

/-- The same call in one fragment. -/
def whole : List String := [wholeText]

def clock : Clock := ⟨1, 1, 1⟩

def start : ChatSseAdapter := newWithContext "qwen" {} {} 1

/-- The stream that brings some fragments. -/
def stream (texts : List String) : List ChatCall :=
  (texts ++ ["[DONE]"]).map (.pushData clock)

def final (texts : List String) : ChatSseAdapter :=
  (run crates start (stream texts)).1

def events (texts : List String) : List StreamEvent :=
  (run crates start (stream texts)).2.map NumberedEvent.event

def response (texts : List String) : Json :=
  (final texts).completedResponse crates 1

/-- What the provider sent for call 0. -/
def sent (texts : List String) : String :=
  String.join ((fragmentsAt 0 (receivedOf crates start
    (stream texts))).filterMap (sentArguments crates))

/-- The fragment with the id and the name carries no arguments, and its
default stands before the arguments that the next fragment brings. -/
theorem default_stands_before_arguments :
    .completed (response split) ∈ events split ∧ sent split = "[1]" ∧
      .outputItemDone 0 (functionCallItem "fc_1" "fc_1" "run" "\x7b\x7d[1]"
        "completed") ∈ events split ∧
      ¬ Reports (events split) (response split) 0 0 (sent split) := by
  have hstream : .completed (response split) ∈ events split ∧
      sent split = "[1]" ∧
      .outputItemDone 0 (functionCallItem "fc_1" "fc_1" "run" "\x7b\x7d[1]"
        "completed") ∈ events split ∧
      ∀ event ∈ events split, event.doneIndex = some 0 →
        event = .outputItemDone 0 (functionCallItem "fc_1" "fc_1" "run"
          "\x7b\x7d[1]" "completed") := by
    decide +kernel
  obtain ⟨hcompleted, hsent, hmem, hdone⟩ := hstream
  refine ⟨hcompleted, hsent, hmem, ?_⟩
  rintro ⟨⟨item, hitem, harguments⟩, -⟩
  cases hdone _ hitem rfl
  rw [hsent] at harguments
  revert harguments
  decide

theorem whole_call_is_reported :
    Reports (events whole) (response whole) 0 0 "[1]" := by
  have hstream : .completed (response whole) ∈ events whole ∧
      sent whole = "[1]" ∧
      (final whole).toolContext = {} ∧
      (final whole).outputSlots[0]? = some (.call 0) ∧
      OrderedMap.lookup 0 (final whole).toolCalls = some
        { id := "fc_1", name := "run", arguments := "[1]", added := true } ∧
      ∀ fragment ∈ fragmentsAt 0 (receivedOf crates start (stream whole)),
        (sentArguments crates fragment).isSome = true := by
    decide +kernel
  obtain ⟨hcompleted, hsent, hcontext, hposition, hcall, hcarried⟩ :=
    hstream
  rw [final, start] at hcontext hcall
  have hfunction : IsFunctionCall (run crates (newWithContext "qwen" {} {} 1)
      (stream whole)).1.toolContext "run" := by
    rw [hcontext]
    exact ⟨by decide, by decide, by decide⟩
  obtain ⟨-, hreports⟩ := arguments_as_sent_iff crates "qwen" {} {} 1
    (stream whole) hcompleted hcall hposition
  rw [← hsent]
  exact (hreports hfunction).mpr hcarried

end SplitCall

end ChatSseAdapter

end Vellum.Proxy
