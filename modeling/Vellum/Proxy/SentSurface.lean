/-
The tools that a translated request leaves with, and the one that it chooses.
Names are distinct but for delegation, which the Responses wire adds last; the
Chat wire does not drop an idle web search; and the choice is rewritten without
a look at the functions that are left.
-/
import Vellum.Proxy.OfferedTools

namespace Vellum.Proxy

open List Option Json

/-- The function that a tool choice names. -/
def choiceName (choice : Json) : Option String :=
  (toolText choice "name").or
    (((choice.get "function").bind (Json.get "name")).bind Json.asStr)

/-- The function that a request asks for. -/
def chosenFunction (body : Json) : Option String :=
  (body.get "tool_choice").bind choiceName

/-- What is promised of the tools that a request is sent with. -/
structure ToolSurface (shape : ToolShape) (webSearchEnabled : Bool)
    (body : Json) : Prop where
  distinct : (sentNames shape body).Nodup
  search : webSearchEnabled = false → "web_search" ∉ sentNames shape body
  chosen : ∀ name, chosenFunction body = some name →
    name ∈ sentNames shape body

/-- The names of the functions that a request offers. -/
def offeredNames (shape : ToolShape) (profile : HarnessProfile)
    (webSearchEnabled : Bool) (body : Json) : List String :=
  (offeredFunctions shape profile webSearchEnabled body).filterMap shape.called

/-! The choice on either wire. -/

theorem choiceName_normalizeChatToolChoice (choice : Json) :
    choiceName (normalizeChatToolChoice choice) = choiceName choice := by
  cases choice with
  | obj fields =>
    have hpointer : (obj fields).pointer ["function", "name"] =
        ((obj fields).get "function").bind (Json.get "name") := by
      rw [pointer]
      congr 1
      funext function
      cases function with
      | obj inner =>
        rw [pointer]
        cases (obj inner).get "name" <;> rfl
      | null | bool | num | str | arr => rfl
    rw [normalizeChatToolChoice, hpointer, ← choiceName]
    cases hname : choiceName (obj fields) <;> rfl
  | null | bool | num | str | arr => rfl

theorem choiceName_mapStrings (change : String → String) (choice : Json) :
    choiceName (mapStrings change choice) = (choiceName choice).map change := by
  have htext (value : Option Json) :
      (value.map (mapStrings change)).bind asStr =
        (value.bind asStr).map change := by
    cases value with
    | none => rfl
    | some value => exact asStr_mapStrings change value
  have hname : ((choice.get "function").map (mapStrings change)).bind
      (Json.get "name") = ((choice.get "function").bind (Json.get "name")).map
        (mapStrings change) := by
    cases choice.get "function" with
    | none => rfl
    | some function => exact get_mapStrings change "name" function
  rw [choiceName, toolText, get_mapStrings, get_mapStrings, htext, hname, htext,
    ← map_or]
  rfl

theorem toolChoice_withFunctionTools {fields : List (String × Json)}
    (htidy : (obj fields).Tidy) (tools : List Json) :
    (obj (withFunctionTools tools fields)).get "tool_choice" =
      if tools.isEmpty then none
      else ((obj fields).get "tool_choice").map normalizeGrokToolChoice := by
  rw [withFunctionTools]
  split
  · have hchoice := nodup_removeField (tidy_obj_iff.mp htidy) "tool_choice"
    rw [get_removeField hchoice (by decide), get_eq_none_iff]
    exact notMem_removeField (tidy_obj_iff.mp htidy) "tool_choice"
  · have hequipped : (obj (insertField "tools" (.arr tools) fields)).get
        "tool_choice" = (obj fields).get "tool_choice" := by
      rw [get_insertField, if_neg (by decide)]
    simp only [hequipped]
    cases hchoice : (obj fields).get "tool_choice" with
    | none => exact hequipped.trans hchoice
    | some choice =>
      exact (get_insertField _ _ _ _).trans (if_pos rfl)

section

variable (crates : AdapterCrates) (route : ProfileAdapterRoute)
  {profile : HarnessProfile} {tools : List Json} (effort : Option String)
  {body : Json} (suppressRequired : Bool)

theorem leaves_normalizeResponsesInputAndTools {crates : Crates}
    {fields rest : List (String × Json)} (htidy : (obj fields).Tidy)
    (hnormalized : normalizeResponsesInputAndTools crates profile fields =
      .ok (rest, tools)) :
    Leaves ["tool_choice"] (.obj fields) (.obj rest) := by
  rw [normalizeResponsesInputAndTools] at hnormalized
  obtain ⟨⟨public', embedded⟩, hpublic, hnormalized⟩ :=
    exists_of_bind_eq_ok hnormalized
  obtain ⟨merged, -, hnormalized⟩ := exists_of_bind_eq_ok hnormalized
  obtain ⟨rfl, rfl⟩ := Prod.mk.inj (Except.ok.inj hnormalized)
  have hleaves := (publicInput_spec htidy hpublic).1
  have hpublicLeaves : Leaves ["tool_choice"] (.obj fields) (.obj public') :=
    ⟨hleaves.tidy, fun key hkey =>
      hleaves.get key (mem_cons_of_mem "tools" hkey)⟩
  exact hpublicLeaves.trans (.removeField hleaves.tidy (by decide))

/-- On the Responses wire the choice is rewritten as long as any function is
left. -/
theorem toolChoice_normalizedRequest {crates : Crates}
    {route : ProfileAdapterRoute} {webSearchEnabled : Bool}
    {canonical normalized : Json} (htidy : canonical.Tidy)
    (hkind : route.providerKind ≠ .official) (hwire : route.wire = .responses)
    (hnormalized : normalizedRequest crates route profile webSearchEnabled
      canonical = .ok normalized) :
    normalized.get "tool_choice" =
      if (requestTools normalized).isEmpty then none
      else (canonical.get "tool_choice").map normalizeGrokToolChoice := by
  obtain ⟨fields, rest, tools, sent, hbefore, hrest, hsent, hafter⟩ :=
    normalizedRequest_cases htidy hkind hwire hnormalized
  have hpublic := leaves_normalizeResponsesInputAndTools hbefore.tidy hrest
  have hfree := (normalizeResponsesInputAndTools_spec hbefore.tidy hrest).2.1
  rw [← hsent.get "tools" (by decide)] at hfree
  rw [hafter.get "tool_choice" (by decide),
    requestTools_congr (hafter.get "tools" (by decide)),
    (requestTools_withFunctionTools hsent.tidy hfree _).1,
    toolChoice_withFunctionTools hsent.tidy,
    hsent.get "tool_choice" (by decide), hpublic.get "tool_choice" (by decide),
    hbefore.get "tool_choice" (by decide)]

/-! The names on the Responses wire. -/

theorem mem_filterMap_called {shape : ToolShape} {name : String} :
    name ∈ tools.filterMap shape.called ↔
      (shape.firstCalled name tools).isSome := by
  rw [mem_filterMap, firstCalled_isSome]

theorem names_withoutIdleSearch {webSearchEnabled : Bool}
    (hfunctions : ∀ tool ∈ tools, ToolShape.responses.IsFunction tool) :
    (withoutIdleSearch webSearchEnabled tools).filterMap
        ToolShape.responses.called =
      (tools.filterMap ToolShape.responses.called).filter fun name =>
        webSearchEnabled || name ≠ "web_search" := by
  rw [withoutIdleSearch]
  cases webSearchEnabled with
  | true =>
    rw [if_pos rfl]
    exact (filter_eq_self.mpr fun name _ => rfl).symm
  | false =>
    rw [if_neg Bool.false_ne_true]
    induction tools with
    | nil => rfl
    | cons tool rest ih =>
      rw [forall_mem_cons] at hfunctions
      have hidle := hfunctions.1.functionToolName
      cases hcalled : ToolShape.responses.called tool with
      | none =>
        rw [hcalled] at hidle
        rw [filter_cons_of_pos (by simp [hidle]),
          filterMap_cons_none hcalled,
          filterMap_cons_none hcalled, ih hfunctions.2]
      | some called =>
        rw [hcalled] at hidle
        rw [filterMap_cons_some hcalled]
        by_cases hsearch : called = "web_search"
        · rw [hsearch] at hidle
          have hdropped : functionToolName tool = some "web_search" :=
            hidle.trans (by decide)
          rw [filter_cons_of_neg (by simp [hdropped]),
            filter_cons_of_neg (by simp [hsearch]), ih hfunctions.2]
        · have hkept : functionToolName tool ≠ some "web_search" := by
            rw [hidle]
            intro hsame
            exact hsearch
              (some.inj (filter_eq_some_iff.mp hsame).1)
          rw [filter_cons_of_pos (by simp [hkept]),
            filter_cons_of_pos (by simp [hsearch]),
            filterMap_cons_some hcalled, ih hfunctions.2]

theorem names_delegationTools (profile : HarnessProfile) :
    (delegationTools .responses profile).filterMap
        ToolShape.responses.called =
      if profile.multiAgentPolicy = .vellumDelegated then [delegationName]
      else [] := by
  rw [delegationTools]
  split <;> rfl

/-- Delegation is added without a look at the functions that are there. -/
theorem nodup_withDelegation {crates : Crates} (webSearchEnabled : Bool)
    {raw embedded merged : List Json}
    (hmerged : mergedTools crates .responses profile raw embedded =
      .ok merged) :
    ((withoutIdleSearch webSearchEnabled
        (merged ++ delegationTools .responses profile)).filterMap
          ToolShape.responses.called).Nodup ↔
      (profile.multiAgentPolicy = .vellumDelegated →
        delegationName ∉ (declaredFunctions .responses profile raw
          embedded).filterMap ToolShape.responses.called) := by
  obtain ⟨-, hmem, -, hfirst⟩ := mergedTools_spec hmerged
  have hfunctions : ∀ tool ∈ merged ++ delegationTools .responses profile,
      ToolShape.responses.IsFunction tool :=
    forall_mem_append.mpr ⟨fun tool htool =>
      isFunction_declaredFunctions tool (hmem tool htool),
        isFunction_delegationTools⟩
  have hsame : delegationName ∈ (declaredFunctions .responses profile raw
      embedded).filterMap ToolShape.responses.called ↔
        delegationName ∈ merged.filterMap ToolShape.responses.called := by
    rw [mem_filterMap_called, mem_filterMap_called, hfirst]
  have hnodup := (nodup_mergedTools hmerged).filter fun name =>
    webSearchEnabled || decide (name ≠ "web_search")
  rw [names_withoutIdleSearch hfunctions, filterMap_append,
    names_delegationTools, filter_append, hsame]
  split
  · rename_i hdelegated
    have hlast : [delegationName].filter (fun name =>
        webSearchEnabled || decide (name ≠ "web_search")) =
          [delegationName] := by
      cases webSearchEnabled <;> decide
    have hkept : (webSearchEnabled ||
        decide (delegationName ≠ "web_search")) = true := by
      cases webSearchEnabled <;> decide
    rw [hlast, nodup_append_comm, singleton_append, nodup_cons,
      mem_filter]
    constructor
    · intro hdistinct _ hthere
      exact hdistinct.1 ⟨hthere, hkept⟩
    · intro hfree
      exact ⟨fun hthere => hfree hdelegated hthere.1, hnodup⟩
  · rename_i hdelegated
    rw [filter_nil, append_nil]
    exact iff_of_true hnodup fun hthere => absurd hthere hdelegated

/-- When a request keeps its promises on the Responses wire. -/
structure ResponsesSurfaceKept (profile : HarnessProfile)
    (webSearchEnabled : Bool) (body : Json) : Prop where
  delegation : profile.multiAgentPolicy = .vellumDelegated →
    delegationName ∉ (declaredFunctions .responses profile (requestTools body)
      (embeddedDeclarations body)).filterMap ToolShape.responses.called
  chosen : offeredFunctions .responses profile webSearchEnabled body ≠ [] →
    ∀ choice name, body.get "tool_choice" = some choice →
      choiceName (normalizeGrokToolChoice choice) = some name →
        name ∈ offeredNames .responses profile webSearchEnabled body

theorem isEmpty_sentFunctions {shape : ToolShape}
    {offered late sent : List Json}
    (hsent : SentFunctions shape offered late sent) :
    sent.isEmpty = true ↔ offered = [] := by
  rw [List.isEmpty_iff]
  constructor
  · intro hnone
    by_contra hsome
    obtain ⟨tool, htool⟩ := exists_mem_of_ne_nil offered hsome
    obtain ⟨name, hname, -⟩ := hsent.named tool htool
    have hfirst := firstCalled_isSome.mpr ⟨tool, htool, hname⟩
    rw [← hsent.first, hnone] at hfirst
    cases hfirst
  · intro hnone
    rw [eq_nil_iff_forall_not_mem]
    intro tool htool
    have hoffered := hsent.mem tool htool
    rw [hnone] at hoffered
    cases hoffered

section Sent

variable {crates : AdapterCrates} {guidance : EvalGuidance} {original : Json}
  {route : ProfileAdapterRoute} {profile : HarnessProfile}
  {environment : ExecutionEnvironment} {catalogEntry : Option Json}
  {webSearchEnabled : Bool} {replay : ReplayContext}
  {prepared : PreparedUpstreamRequest} {canonical : Json}

theorem toolSurface_responses_iff (hroute : TranslatedRoute route profile)
    (hwire : route.wire = .responses) (htidy : original.Tidy)
    (hcanonical : canonicalRequest route original = .ok canonical)
    (hprepared : prepareUpstreamRequestDetails crates guidance original route
      profile environment catalogEntry webSearchEnabled replay =
        .ok prepared) :
    ToolSurface .responses webSearchEnabled prepared.body ↔
      ResponsesSurfaceKept profile webSearchEnabled canonical := by
  obtain ⟨-, normalized, _, hnormalized, -⟩ :=
    (prepare_iff crates guidance original environment catalogEntry
      webSearchEnabled replay hroute.translated hcanonical).mp hprepared
  have hcanonicalTidy := tidy_canonicalRequest htidy hcanonical
  have hleaves := leaves_prepared_responses hroute htidy hcanonical hprepared
    hwire hnormalized
  have hsent := sentFunctions_responses hcanonicalTidy hroute.provider hwire
    hnormalized
  have hempty := isEmpty_sentFunctions hsent
  obtain ⟨merged, hmerged, htools, -⟩ := requestTools_normalizedRequest
    hcanonicalTidy hroute.provider hwire hnormalized
  have hnames : sentNames .responses prepared.body =
      (requestTools normalized).filterMap ToolShape.responses.called := by
    rw [sentNames, requestTools_congr (hleaves.get "tools" (by decide))]
  have hoffered (name : String) : name ∈ sentNames .responses prepared.body ↔
      name ∈ offeredNames .responses profile webSearchEnabled canonical := by
    rw [hnames, offeredNames, mem_filterMap_called, mem_filterMap_called,
      hsent.first]
  have hdistinct := nodup_withDelegation webSearchEnabled hmerged
  rw [← htools, ← hnames] at hdistinct
  have hchoice : chosenFunction prepared.body =
      if (requestTools normalized).isEmpty then none
      else ((canonical.get "tool_choice").map normalizeGrokToolChoice).bind
        choiceName := by
    rw [chosenFunction, hleaves.get "tool_choice" (by decide),
      toolChoice_normalizedRequest hcanonicalTidy hroute.provider hwire
        hnormalized]
    split <;> rfl
  have hidle : webSearchEnabled = false →
      "web_search" ∉ sentNames .responses prepared.body := by
    intro hoff hthere
    rw [hoffered, offeredNames, mem_filterMap_called, offeredFunctions,
      firstCalled_withoutIdleSearch (forall_mem_append.mpr
        ⟨isFunction_declaredFunctions, isFunction_delegationTools⟩),
      if_pos ⟨hoff, rfl⟩] at hthere
    cases hthere
  constructor
  · intro hsurface
    refine ⟨hdistinct.mp hsurface.distinct, ?_⟩
    intro hsome choice name hgiven hname
    refine (hoffered name).mp (hsurface.chosen name ?_)
    rw [hchoice, if_neg (mt hempty.mp hsome), hgiven]
    exact hname
  · intro hkept
    refine ⟨hdistinct.mpr hkept.delegation, hidle, ?_⟩
    intro name hname
    rw [hchoice] at hname
    split at hname
    · cases hname
    · rename_i hsome
      obtain ⟨choice, hrewritten, hname⟩ := bind_eq_some_iff.mp hname
      obtain ⟨given, hgiven, rfl⟩ := map_eq_some_iff.mp hrewritten
      exact (hoffered name).mpr
        (hkept.chosen (mt hempty.mpr hsome) given name hgiven hname)

end Sent

/-! The names on the Chat wire. -/

/-- The request whose input is in its public form. -/
def publicRequest (crates : Crates) (profile : HarnessProfile)
    (replay : ReplayContext) (body : Json) : Json :=
  match chatInputItems crates profile replay body with
  | .ok (items, _) =>
    if ((body.get "input").bind asArr).isSome then
      putField "input" (.arr (items.map Prod.fst)) body
    else body
  | .error _ => body

/-- Whether a Chat request asks for some function, whichever was chosen. -/
def requiresTool (crates : Crates) (profile : HarnessProfile)
    (replay : ReplayContext) (body : Json) : Bool :=
  hasAutoOrMissingToolChoice body &&
    shouldRequireInitialWorkspaceTool crates
      (publicRequest crates profile replay body)

/-- A Chat request before the pass over its images. -/
def transportedChat (route : ProfileAdapterRoute) (effort : Option String)
    (suppressRequired : Bool) (chat : Json) : Json :=
  let chosen :=
    if suppressRequired && toolText chat "tool_choice" = some "required" then
      dropField "tool_choice" chat
    else chat
  let optioned := applyProviderChatOptions route chosen
  match effort with
  | some effort => applyReasoningEffortTransport effort
      route.reasoningEffortTransport optioned
  | none => optioned

/-- What the last pass makes of the names of a Chat request. -/
def sentChange (crates : AdapterCrates) (route : ProfileAdapterRoute)
    (profile : HarnessProfile) (replay : ReplayContext)
    (effort : Option String) (body : Json) : String → String :=
  match responsesToChatProjection crates.toCrates profile
      route.chatCapabilities replay route.vision body with
  | .ok (chat, _) =>
    imageChange crates route (transportedChat route effort
      (route.reasoning && hasAutoOrMissingToolChoice body &&
        shouldRequireInitialWorkspaceTool crates.toCrates body) chat)
  | .error _ => id

theorem sentChatRequest_eq (chat : Json) :
    sentChatRequest crates route effort suppressRequired chat =
      mapStrings (imageChange crates route
        (transportedChat route effort suppressRequired chat))
        (transportedChat route effort suppressRequired chat) :=
  fitChatImages_eq crates route _

/-- Up to the pass over its images a Chat request keeps its functions, and the
choice unless it only asks for some function. -/
theorem transportedChat_spec {chat : Json} (htidy : chat.Tidy) :
    (transportedChat route effort suppressRequired chat).get "tools" =
        chat.get "tools" ∧
      (transportedChat route effort suppressRequired chat).get "tool_choice" =
        if suppressRequired && toolText chat "tool_choice" = some "required"
        then none else chat.get "tool_choice" := by
  unfold transportedChat
  extract_lets chosen optioned
  have hchosen : chosen.Tidy ∧ chosen.get "tools" = chat.get "tools" ∧
      chosen.get "tool_choice" =
        if suppressRequired && toolText chat "tool_choice" = some "required"
        then none else chat.get "tool_choice" := by
    simp only [chosen]
    split
    · refine ⟨tidy_dropField htidy _, get_dropField (by decide) htidy, ?_⟩
      cases chat with
      | obj fields =>
        exact get_eq_none_iff.mpr
          (notMem_removeField (tidy_obj_iff.mp htidy) "tool_choice")
      | null | bool | num | str | arr => rfl
    · exact ⟨htidy, rfl, rfl⟩
  have hoptioned : Leaves ["tools", "tool_choice"] chosen optioned :=
    leaves_applyProviderChatOptions (by decide) route hchosen.1
  have htransported : Leaves ["tools", "tool_choice"] chosen
      (match effort with
        | some effort => applyReasoningEffortTransport effort
            route.reasoningEffortTransport optioned
        | none => optioned) := by
    cases effort with
    | none => exact hoptioned
    | some effort =>
      exact hoptioned.trans (leaves_applyReasoningEffortTransport
        (by decide) effort route.reasoningEffortTransport hoptioned.tidy)
  rw [htransported.get "tools" (by decide),
    htransported.get "tool_choice" (by decide)]
  exact hchosen.2

theorem choiceName_chatToolChoice (crates : Crates) {public' : Json}
    (hkept : public'.get "tool_choice" = body.get "tool_choice")
    (tools : List Json) :
    (chatToolChoice crates public' tools).bind choiceName =
      if tools.isEmpty || (hasAutoOrMissingToolChoice body &&
        shouldRequireInitialWorkspaceTool crates public') then none
      else chosenFunction body := by
  have hauto : hasAutoOrMissingToolChoice public' =
      hasAutoOrMissingToolChoice body := by
    rw [hasAutoOrMissingToolChoice, hasAutoOrMissingToolChoice, hkept]
  rw [chatToolChoice, hauto, hkept, chosenFunction]
  cases tools.isEmpty with
  | true => rfl
  | false =>
    rw [if_neg Bool.false_ne_true, Bool.false_or]
    split
    · rfl
    · cases body.get "tool_choice" with
      | none => rfl
      | some choice => exact choiceName_normalizeChatToolChoice choice

theorem choiceName_dropped (change : String → String) {chat : Json}
    {chosen : Option Json} (hchoice : chat.get "tool_choice" = chosen)
    (suppressRequired : Bool) :
    ((if suppressRequired && toolText chat "tool_choice" = some "required"
      then none else chosen).map (mapStrings change)).bind choiceName =
      (chosen.bind choiceName).map change := by
  have hmap : (chosen.map (mapStrings change)).bind choiceName =
      (chosen.bind choiceName).map change := by
    cases chosen with
    | none => rfl
    | some choice => exact choiceName_mapStrings change choice
  split
  · rename_i hdropped
    rw [Bool.and_eq_true, decide_eq_true_eq, toolText, hchoice] at hdropped
    obtain ⟨choice, hgiven, htext⟩ := bind_eq_some_iff.mp hdropped.2
    rw [hgiven]
    cases choice with
    | str text => rfl
    | null | bool | num | arr | obj => cases htext
  · exact hmap

/-- The functions that a Chat request leaves with, and the one it chooses. -/
theorem preparedChat_spec {crates : AdapterCrates} {route : ProfileAdapterRoute}
    {replay : ReplayContext} {effort : Option String}
    {prepared : PreparedUpstreamRequest}
    (hprepared : prepareChatRequest crates route profile replay effort body =
      .ok prepared) :
    ∃ tools, chatRequestTools crates.toCrates profile (requestTools body)
        (embeddedDeclarations body) = .ok tools ∧
      requestTools prepared.body = tools.map (mapStrings
        (sentChange crates route profile replay effort body)) ∧
      chosenFunction prepared.body =
        if tools.isEmpty || requiresTool crates.toCrates profile replay body
        then none
        else (chosenFunction body).map
          (sentChange crates route profile replay effort body) := by
  rw [prepareChatRequest] at hprepared
  obtain ⟨⟨chat, projection⟩, hchat, hprepared⟩ :=
    exists_of_bind_eq_ok hprepared
  obtain ⟨_, -, hprepared⟩ := exists_of_bind_eq_ok hprepared
  obtain rfl := Except.ok.inj hprepared
  have hchange : sentChange crates route profile replay effort body =
      imageChange crates route (transportedChat route effort
        (route.reasoning && hasAutoOrMissingToolChoice body &&
          shouldRequireInitialWorkspaceTool crates.toCrates body) chat) := by
    rw [sentChange, hchat]
  rw [responsesToChatProjection] at hchat
  cases hobject : body.isObject with
  | false =>
    rw [hobject] at hchat
    cases hchat
  | true =>
    rw [hobject] at hchat
    obtain ⟨⟨items, embedded⟩, hitems, hchat⟩ := exists_of_bind_eq_ok hchat
    obtain ⟨tools, htools, hchat⟩ := exists_of_bind_eq_ok hchat
    obtain ⟨transcript, -, hchat⟩ := exists_of_bind_eq_ok hchat
    have hpublic : publicRequest crates.toCrates profile replay body =
        if ((body.get "input").bind asArr).isSome then
          putField "input" (.arr (items.map Prod.fst)) body
        else body := by
      rw [publicRequest, hitems]
    rw [← hpublic] at hchat
    obtain ⟨rfl, -⟩ := Prod.mk.inj (Except.ok.inj hchat)
    have hkept : (publicRequest crates.toCrates profile replay body).get
        "tool_choice" = body.get "tool_choice" := by
      rw [hpublic]
      split
      · exact get_putField (by decide) _ _
      · rfl
    obtain ⟨-, hlisted, hchoice⟩ := get_chatBody crates.toCrates
      (publicRequest crates.toCrates profile replay body) tools transcript
    obtain ⟨hsentTools, hsentChoice⟩ := transportedChat_spec route effort
      (route.reasoning && hasAutoOrMissingToolChoice body &&
        shouldRequireInitialWorkspaceTool crates.toCrates body)
      (tidy_chatBody crates.toCrates
        (publicRequest crates.toCrates profile replay body) tools transcript)
    rw [embedded_chatInputItems hitems] at htools
    refine ⟨tools, htools, ?_, ?_⟩
    · rw [hchange, sentChatRequest_eq, requestTools, get_mapStrings,
        hsentTools, hlisted]
      split
      · rename_i hempty
        rw [List.isEmpty_iff.mp hempty]
        rfl
      · rw [map_some, mapStrings, mapItems_eq_map]
        rfl
    · rw [hchange, sentChatRequest_eq, chosenFunction, get_mapStrings,
        hsentChoice, choiceName_dropped _ rfl, hchoice,
        choiceName_chatToolChoice crates.toCrates hkept, requiresTool]
      split <;> rfl

/-- A rewriting of strings that makes images of images. -/
def KeepsImages (change : String → String) : Prop :=
  ∀ text, startsWith text "data:image/" = true →
    startsWith (change text) "data:image/" = true

theorem keepsImages_rewriteDataImage (maxLongEdge quality : Nat) :
    KeepsImages (rewriteDataImage crates maxLongEdge quality) := by
  intro text htext
  rw [rewriteDataImage, if_pos htext]
  cases hcompressed : compressDataImage crates maxLongEdge quality text with
  | none => exact htext
  | some compressed =>
    rw [compressDataImage] at hcompressed
    split at hcompressed
    · cases hcompressed
    · simp only [] at hcompressed
      split at hcompressed
      · cases hcompressed
      · obtain ⟨hjpeg, -⟩ := filter_eq_some_iff.mp hcompressed
        obtain ⟨encoded, -, rfl⟩ := map_eq_some_iff.mp hjpeg
        rw [getD_some, startsWith, String.toList_append,
          List.isPrefixOf_iff_prefix]
        have hfront : "data:image/".toList <+:
            "data:image/jpeg;base64,".toList := by decide
        exact hfront.trans (prefix_append _ _)

theorem keepsImages_fitChange (targetBytes : Nat) (passes : List (Nat × Nat))
    (body : Json) : KeepsImages (fitChange crates targetBytes passes body) := by
  induction passes generalizing body with
  | nil => exact fun _ htext => htext
  | cons pass rest ih =>
    have hpass := keepsImages_rewriteDataImage crates pass.1 pass.2
    rw [fitChange]
    split
    · exact hpass
    · exact fun text htext => ih _ _ (hpass text htext)

theorem sentChange_images (profile : HarnessProfile) (replay : ReplayContext)
    (effort : Option String) (body : Json) :
    ImagesOnly (sentChange crates route profile replay effort body) ∧
      KeepsImages (sentChange crates route profile replay effort body) := by
  rw [sentChange]
  split
  · refine ⟨imagesOnly_imageChange crates route _, ?_⟩
    rw [imageChange]
    split
    · exact fun _ htext => htext
    · exact keepsImages_fitChange _ _ _ _
  · exact ⟨fun _ _ => rfl, fun _ htext => htext⟩

/-- Only a text that is no image becomes one. -/
theorem eq_of_change_eq {change : String → String} (honly : ImagesOnly change)
    (hkeeps : KeepsImages change) {text plain : String}
    (hplain : startsWith plain "data:image/" = false)
    (heq : change text = plain) : text = plain := by
  cases htext : startsWith text "data:image/" with
  | false => exact (honly text htext).symm.trans heq
  | true =>
    have himage := hkeeps text htext
    rw [heq, hplain] at himage
    cases himage

/-- When a request keeps its promises on the Chat wire, whose last pass makes
`change` of the strings. -/
structure ChatSurfaceKept (crates : Crates) (profile : HarnessProfile)
    (webSearchEnabled : Bool) (replay : ReplayContext)
    (change : String → String) (body : Json) : Prop where
  apart : ∀ name ∈ offeredNames .chat profile webSearchEnabled body,
    ∀ other ∈ offeredNames .chat profile webSearchEnabled body,
      change name = change other → name = other
  search : webSearchEnabled = false →
    "web_search" ∉ offeredNames .chat profile webSearchEnabled body
  chosen : offeredFunctions .chat profile webSearchEnabled body ≠ [] →
    requiresTool crates profile replay body = false →
      ∀ name, chosenFunction body = some name →
        ∃ other ∈ offeredNames .chat profile webSearchEnabled body,
          change other = change name

/-- The fields that tell which functions a Chat request leaves with. -/
def surfaceKeys : List String := ["tools", "input", "tool_choice"]

theorem get_putField_self {name : String} {old : Json}
    (hthere : body.get name = some old) (value : Json) :
    (putField name value body).get name = some value := by
  cases body with
  | obj fields => rw [putField, get_insertField, if_pos rfl]
  | null | bool | num | str | arr => cases hthere

end

theorem requiresTool_congr {before after : Json} (crates : Crates)
    (profile : HarnessProfile) (replay : ReplayContext)
    (hleaves : Leaves surfaceKeys before after) :
    requiresTool crates profile replay after =
      requiresTool crates profile replay before := by
  have hinput := hleaves.get "input" (by decide)
  have hitems : chatInputItems crates profile replay after =
      chatInputItems crates profile replay before := by
    rw [chatInputItems, chatInputItems, requestInputItems, requestInputItems,
      hinput]
  have hpublic : (publicRequest crates profile replay after).get "input" =
      (publicRequest crates profile replay before).get "input" := by
    rw [publicRequest, publicRequest, hitems, hinput]
    split
    · split
      · rename_i hlisted
        cases hgiven : before.get "input" with
        | none =>
          rw [hgiven] at hlisted
          cases hlisted
        | some given =>
          rw [get_putField_self (hinput.trans hgiven),
            get_putField_self hgiven]
      · exact hinput
    · exact hinput
  rw [requiresTool, requiresTool, hasAutoOrMissingToolChoice,
    hasAutoOrMissingToolChoice, hleaves.get "tool_choice" (by decide),
    shouldRequireInitialWorkspaceTool, shouldRequireInitialWorkspaceTool,
    initialPrompt, initialPrompt, hpublic]

section SentChat

variable {crates : AdapterCrates} {guidance : EvalGuidance} {original : Json}
  {route : ProfileAdapterRoute} {profile : HarnessProfile}
  {environment : ExecutionEnvironment} {catalogEntry : Option Json}
  {webSearchEnabled : Bool} {replay : ReplayContext}
  {prepared : PreparedUpstreamRequest} {canonical : Json}

theorem toolSurface_chat_iff (hroute : TranslatedRoute route profile)
    (hwire : route.wire = .chat) (htidy : original.Tidy)
    (hcanonical : canonicalRequest route original = .ok canonical)
    (hprepared : prepareUpstreamRequestDetails crates guidance original route
      profile environment catalogEntry webSearchEnabled replay =
        .ok prepared) :
    ToolSurface .chat webSearchEnabled prepared.body ↔
      ChatSurfaceKept crates.toCrates profile webSearchEnabled replay
        (sentChange crates route profile replay (requestEffort canonical)
          (instructedRequest route profile environment catalogEntry guidance
            canonical)) canonical := by
  have hsame := (exists_requestTools_prepared_chat hroute htidy hcanonical
    hprepared hwire).1
  obtain ⟨-, normalized, _, hnormalized, rfl, hchat⟩ :=
    (prepare_iff crates guidance original environment catalogEntry
      webSearchEnabled replay hroute.translated hcanonical).mp hprepared
  obtain rfl := Except.ok.inj (hsame.symm.trans hnormalized)
  rw [hwire] at hchat
  have hleaves : Leaves surfaceKeys canonical (instructedRequest route
      profile environment catalogEntry guidance canonical) :=
    leaves_applyRequestTimeInstructions (by decide) _ _ _ _ _
      (tidy_canonicalRequest htidy hcanonical)
  obtain ⟨tools, htools, hsentTools, hchosen⟩ := preparedChat_spec hchat
  have himages := sentChange_images crates route profile replay
    (requestEffort canonical) (instructedRequest route profile environment
      catalogEntry guidance canonical)
  generalize sentChange crates route profile replay (requestEffort canonical)
    (instructedRequest route profile environment catalogEntry guidance
      canonical) = change at hsentTools hchosen himages ⊢
  rw [requiresTool_congr crates.toCrates profile replay hleaves,
    chosenFunction.eq_1 (instructedRequest _ _ _ _ _ _),
    hleaves.get "tool_choice" (by decide), ← chosenFunction] at hchosen
  rw [requestTools_congr (hleaves.get "tools" (by decide)),
    embeddedDeclarations, hleaves.get "input" (by decide),
    ← embeddedDeclarations] at htools
  have hsent : SentFunctions .chat
      (offeredFunctions .chat profile webSearchEnabled canonical) [] tools :=
    sentFunctions_chat htools
  have hempty := isEmpty_sentFunctions hsent
  have hnodup : (tools.filterMap ToolShape.chat.called).Nodup := by
    rw [chatRequestTools] at htools
    obtain ⟨merged, -, hkept⟩ := exists_of_bind_eq_ok htools
    exact nodup_deduplicateFrom hkept
  have hnames : sentNames .chat prepared.body =
      (tools.filterMap ToolShape.chat.called).map change := by
    rw [sentNames, hsentTools, filterMap_map, map_filterMap]
    refine filterMap_congr fun tool htool => ?_
    exact called_mapStrings change
      (isFunction_offeredFunctions tool (hsent.mem tool htool))
  have hoffered (name : String) :
      name ∈ tools.filterMap ToolShape.chat.called ↔
        name ∈ offeredNames .chat profile webSearchEnabled canonical := by
    rw [offeredNames, mem_filterMap_called, mem_filterMap_called, hsent.first]
  constructor
  · intro hsurface
    refine ⟨?_, fun hoff hthere => hsurface.search hoff ?_, ?_⟩
    · intro name hname other hother hsame
      have hdistinct := hsurface.distinct
      rw [hnames] at hdistinct
      exact inj_on_of_nodup_map hdistinct ((hoffered name).mpr hname)
        ((hoffered other).mpr hother) hsame
    · rw [hnames, List.mem_map]
      exact ⟨"web_search", (hoffered _).mpr hthere,
        himages.1 "web_search" (by decide)⟩
    · intro hsome hfree name hname
      have hthere := hsurface.chosen (change name) (by
        rw [hchosen, hfree, Bool.or_false, if_neg (mt hempty.mp hsome), hname]
        rfl)
      rw [hnames, List.mem_map] at hthere
      obtain ⟨other, hother, hsame⟩ := hthere
      exact ⟨other, (hoffered other).mp hother, hsame⟩
  · intro hkept
    refine ⟨?_, fun hoff hthere => ?_, ?_⟩
    · rw [hnames]
      refine hnodup.map_on fun name hname other hother hsame => ?_
      exact hkept.apart name ((hoffered name).mp hname) other
        ((hoffered other).mp hother) hsame
    · rw [hnames, List.mem_map] at hthere
      obtain ⟨name, hname, heq⟩ := hthere
      have hsearch : name = "web_search" :=
        eq_of_change_eq himages.1 himages.2 (by decide) heq
      exact hkept.search hoff (hsearch ▸ (hoffered name).mp hname)
    · intro name hname
      rw [hchosen] at hname
      split at hname
      · cases hname
      · rename_i hfree
        rw [Bool.or_eq_true, not_or, Bool.not_eq_true (requiresTool _ _ _ _)]
          at hfree
        obtain ⟨given, hgiven, rfl⟩ := map_eq_some_iff.mp hname
        obtain ⟨other, hother, hsame⟩ := hkept.chosen
          (mt hempty.mpr hfree.1) hfree.2 given hgiven
        rw [hnames, List.mem_map]
        exact ⟨other, (hoffered other).mpr hother, hsame⟩

/-- When a request keeps its promises about the tools it is sent with. -/
def SurfaceKept (crates : AdapterCrates) (guidance : EvalGuidance)
    (route : ProfileAdapterRoute) (profile : HarnessProfile)
    (environment : ExecutionEnvironment) (catalogEntry : Option Json)
    (webSearchEnabled : Bool) (replay : ReplayContext) (canonical : Json) :
    Prop :=
  match route.wire with
  | .responses => ResponsesSurfaceKept profile webSearchEnabled canonical
  | .chat =>
    ChatSurfaceKept crates.toCrates profile webSearchEnabled replay
      (sentChange crates route profile replay (requestEffort canonical)
        (instructedRequest route profile environment catalogEntry guidance
          canonical)) canonical

/-- The names of the functions that are sent are distinct, no idle web search
is among them and a choice names one of them if and only if delegation is not
declared by the request, a Chat request declares no idle web search, and the
choice names what is offered. -/
theorem toolSurface_iff (hroute : TranslatedRoute route profile)
    (htidy : original.Tidy)
    (hcanonical : canonicalRequest route original = .ok canonical)
    (hprepared : prepareUpstreamRequestDetails crates guidance original route
      profile environment catalogEntry webSearchEnabled replay =
        .ok prepared) :
    ToolSurface route.wire.shape webSearchEnabled prepared.body ↔
      SurfaceKept crates guidance route profile environment catalogEntry
        webSearchEnabled replay canonical := by
  rw [SurfaceKept]
  cases hwire : route.wire with
  | responses =>
    exact toolSurface_responses_iff hroute hwire htidy hcanonical hprepared
  | chat =>
    exact toolSurface_chat_iff hroute hwire htidy hcanonical hprepared

end SentChat

namespace DroppedChoice

def function (name : String) : Json :=
  .obj [("type", .str "function"), ("name", .str name),
    ("parameters", typeSchema "object")]

/-- Two functions, one of which is chosen. -/
def request (chosen : String) : Json :=
  .obj [("model", .str "m"), ("input", .str "hi"),
    ("tools", .arr [function "grep", function "web_search"]),
    ("tool_choice", .obj [("type", .str "function"), ("name", .str chosen)])]

def crates : AdapterCrates where
  fromStr _ := none
  toStr _ := ""
  sha256 _ := []
  recompress _ _ _ := none
  parseUrl _ := none
  printUrl _ := ""

def route : ProfileAdapterRoute where
  upstreamModel := "m"
  reasoning := false
  vision := false
  providerKind := .openAiCompatible
  wire := .responses
  baseUrl := "https://example.test/v1"

def profile : HarnessProfile := .generic .responses

theorem routed : TranslatedRoute route profile := ⟨rfl, by decide, by decide⟩

/-- What is left of the request for a route without a local search. -/
def normalized (chosen : String) : Json :=
  .obj [("model", .str "m"), ("input", .str "hi"),
    ("tool_choice", .obj [("type", .str "function"), ("name", .str chosen)]),
    ("tools", .arr [ToolShape.responses.tool (.str "grep") (.str "")
      (typeSchema "object")])]

theorem exists_prepared {chosen : String}
    (hcanonical : canonicalRequest route (request chosen) =
      .ok (request chosen))
    (hnormalized : normalizedRequest crates.toCrates route profile false
      (request chosen) = .ok (normalized chosen)) :
    ∃ prepared, prepareUpstreamRequestDetails crates {} (request chosen) route
      profile .posixReference none false {} = .ok prepared :=
  ⟨_, (prepare_iff crates {} (request chosen) .posixReference none false {} rfl
    hcanonical).mpr ⟨rfl, normalized chosen, _, hnormalized, rfl, rfl⟩⟩

/-- A choice of the function that is left is kept. -/
theorem grep_is_kept : ∃ prepared,
    prepareUpstreamRequestDetails crates {} (request "grep") route profile
        .posixReference none false {} = .ok prepared ∧
      ToolSurface .responses false prepared.body := by
  have hcanonical : canonicalRequest route (request "grep") =
      .ok (request "grep") := by decide
  obtain ⟨prepared, hprepared⟩ := exists_prepared hcanonical (by decide)
  refine ⟨prepared, hprepared, (toolSurface_iff routed
    (Tidy.of_distinct (by decide)) hcanonical hprepared).mpr ⟨?_, ?_⟩⟩
  · intro hdelegated
    cases hdelegated
  · rintro - choice name hgiven hname
    obtain rfl := some.inj hgiven
    obtain rfl := some.inj hname
    decide

/-- The choice of an idle web search stays, and its function goes. -/
theorem web_search_stays_chosen : ∃ prepared,
    prepareUpstreamRequestDetails crates {} (request "web_search") route profile
        .posixReference none false {} = .ok prepared ∧
      chosenFunction prepared.body = some "web_search" ∧
      sentNames .responses prepared.body = ["grep"] := by
  have hcanonical : canonicalRequest route (request "web_search") =
      .ok (request "web_search") := by decide
  have hnormalized : normalizedRequest crates.toCrates route profile false
      (request "web_search") = .ok (normalized "web_search") := by decide
  obtain ⟨prepared, hprepared⟩ := exists_prepared hcanonical hnormalized
  have hleaves := leaves_prepared_responses routed
    (Tidy.of_distinct (by decide)) hcanonical hprepared rfl hnormalized
  refine ⟨prepared, hprepared, ?_, ?_⟩
  · rw [chosenFunction, hleaves.get "tool_choice" (by decide)]
    decide
  · rw [sentNames, requestTools_congr (hleaves.get "tools" (by decide))]
    decide

end DroppedChoice

end Vellum.Proxy
