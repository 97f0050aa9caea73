/-
The tools the prompt speaks of and the tools that are sent.  The prompt is
written for the functions of the request as it stands before it leaves.
-/
import Vellum.Proxy.OfferedTools

namespace Vellum.Proxy

open List Option Json

/-! The names the prompt is written with. -/

section

variable {shape : ToolShape} {profile : HarnessProfile} {text : String}
  {webSearchEnabled : Bool} {body : Json} {name : String}

/-- A built-in that is not shown has no function. -/
theorem translate_of_unsupported (profile : HarnessProfile) {tool : Json}
    {kind reason : String} (hkind : toolKind tool = some kind)
    (hother : kind ∉ ["function", "custom", "namespace", "tool_search"])
    (hunsupported : builtinTool kind = .unsupported reason) :
    shape.translate profile tool = [] := by
  simp only [mem_cons, not_mem_nil, or_false, not_or] at hother
  obtain ⟨hfunction, hcustom, hnamespace, hsearch⟩ := hother
  have hnone (shape : ToolShape) : builtinFunction shape kind = [] := by
    rw [builtinFunction, hunsupported]
  cases shape with
  | chat =>
    rw [ToolShape.translate, chatTools, hkind]
    simp only [hfunction, hcustom, hnamespace, hsearch, if_false, hnone]
  | responses =>
    cases tool with
    | obj fields =>
      rw [ToolShape.translate, grokFunctionTools]
      simp only [hkind, hfunction, hcustom, hnamespace, hsearch, if_false,
        hnone]
    | null | bool | num | str | arr => cases hkind

theorem toolSnapshot_name {origin : String} {tool : Json}
    (hfunction : shape.IsFunction tool) :
    (toolSnapshot origin tool).map ToolSnapshot.name = shape.called tool := by
  obtain ⟨name, description, parameters, rfl⟩ := hfunction
  have hname : toolText (((shape.tool name description parameters).get
      "function").getD (shape.tool name description parameters)) "name" =
        name.asStr := by
    cases shape <;> rfl
  rw [ToolShape.called_tool, toolSnapshot, hname, Option.map_map]
  cases name.asStr <;> rfl

theorem visibleTool_names (shape : ToolShape) (profile : HarnessProfile)
    (tool : Json) :
    (visibleTool shape profile tool).1.map ToolSnapshot.name =
      (shape.translate profile tool).filterMap shape.called := by
  have hseen (origin : String) : ((shape.translate profile tool).filterMap
      (toolSnapshot origin)).map ToolSnapshot.name =
        (shape.translate profile tool).filterMap shape.called := by
    rw [map_filterMap]
    exact filterMap_congr fun function hfunction =>
      toolSnapshot_name (isFunction_translate shape profile tool function hfunction)
  unfold visibleTool
  extract_lets origin seen
  split
  · exact hseen origin
  · rename_i hother
    split
    · rename_i reason hunsupported
      cases hkind : toolKind tool with
      | none =>
        simp only [origin, hkind] at hother
        exact absurd (by decide) hother
      | some kind =>
        have horigin : origin = kind := by simp only [origin, hkind]; rfl
        rw [horigin] at hother hunsupported
        rw [translate_of_unsupported profile hkind hother hunsupported]
        rfl
    · exact hseen origin

/-- The prompt is written for the functions of the body's own declarations. -/
theorem modelVisibleTools_names (body : Json) (wire : RuntimeWireFormat)
    (profile : HarnessProfile) :
    (modelVisibleTools body wire profile).1.map ToolSnapshot.name =
      ((requestTools body).flatMap (wire.shape.translate profile)).filterMap
        wire.shape.called := by
  rw [modelVisibleTools, flatMap_map, map_flatMap,
    filterMap_flatMap]
  congr 1
  funext tool
  exact visibleTool_names wire.shape profile tool

/-! Where the prompt and the request agree. -/

/-- Some function has the name. -/
def ToolShape.Calls (shape : ToolShape) (tools : List Json) (name : String) :
    Prop :=
  ∃ tool ∈ tools, shape.called tool = some name

/-- The request's own declarations that are no free-form tools, translated. -/
def wrapperFunctions (shape : ToolShape) (profile : HarnessProfile) (body : Json) :
    List Json :=
  ((requestTools body).filter (!isCustomTool ·)).flatMap (shape.translate profile)

/-- The free-form tools of a request, translated. -/
def customFunctions (shape : ToolShape) (profile : HarnessProfile) (body : Json) :
    List Json :=
  ((requestTools body).filter isCustomTool).flatMap (shape.translate profile)

/-- The names of the free-form tools of a request. -/
def customNames (body : Json) : List String :=
  ((requestTools body).filter isCustomTool).filterMap functionToolName

/-- The functions of the declarations that stand in the input, and those of the
delegation runtime. -/
def addedFunctions (shape : ToolShape) (profile : HarnessProfile) (body : Json) :
    List Json :=
  (embeddedDeclarations body).flatMap (shape.translate profile) ++
    delegationTools shape profile

/-- On the Chat wire the prompt knows the request's own declarations: every
other function has to have a name among them, and a wrapper that gives way to a
free-form tool has to leave its name to another function. -/
def ChatPromptComplete (profile : HarnessProfile) (body : Json) : Prop :=
  let shape := ToolShape.chat
  (∀ name, shape.Calls (addedFunctions shape profile body) name →
    shape.Calls (wrapperFunctions shape profile body ++
      customFunctions shape profile body) name) ∧
  ∀ name, shape.Calls (wrapperFunctions shape profile body) name →
    name ∈ customNames body →
      shape.Calls (customFunctions shape profile body ++
        addedFunctions shape profile body) name

/-- On the Responses wire the prompt is written after the merge, for functions
with a schema that reads as an object. -/
def ResponsesPromptComplete (profile : HarnessProfile) (webSearchEnabled : Bool)
    (body : Json) : Prop :=
  let shape := ToolShape.responses
  ∀ name tool,
    shape.firstCalled name (offeredFunctions shape profile webSearchEnabled body) =
      some tool →
    (objectRootedToolParameters (shape.schema tool)).isSome ∨
      shape.Calls (delegationTools shape profile) name

/-- The prompt speaks of what is sent. -/
def PromptComplete (wire : RuntimeWireFormat) (profile : HarnessProfile)
    (webSearchEnabled : Bool) (body : Json) : Prop :=
  match wire with
  | .chat => ChatPromptComplete profile body
  | .responses => ResponsesPromptComplete profile webSearchEnabled body

/-- The names of the functions of a body that has been merged already. -/
theorem mem_prompt_responses
    (hfunctions : ∀ tool ∈ requestTools body,
      ToolShape.responses.IsFunction tool) (name : String) :
    name ∈ ((requestTools body).flatMap (grokFunctionTools profile)).filterMap
        ToolShape.responses.called ↔
      ∃ tool ∈ requestTools body, ToolShape.responses.called tool = some name ∧
        (objectRootedToolParameters (ToolShape.responses.schema tool)).isSome := by
  have htool (tool : Json) (hfunction : ToolShape.responses.IsFunction tool) :
      (∃ function ∈ grokFunctionTools profile tool,
        ToolShape.responses.called function = some name) ↔
      ToolShape.responses.called tool = some name ∧
        (objectRootedToolParameters
          (ToolShape.responses.schema tool)).isSome := by
    obtain ⟨called, description, parameters, rfl⟩ := hfunction
    rw [ToolShape.called_tool, ToolShape.schema_tool]
    have heq : grokFunctionTools profile (ToolShape.responses.tool called
        description parameters) =
          ((objectRootedToolParameters parameters).map fun rooted =>
            ToolShape.responses.tool called description rooted).toList := rfl
    rw [heq]
    cases objectRootedToolParameters parameters with
    | none => simp
    | some rooted => simp
  rw [mem_filterMap]
  constructor
  · rintro ⟨function, hfunction, hname⟩
    obtain ⟨tool, hmem, hfunction⟩ := mem_flatMap.mp hfunction
    exact ⟨tool, hmem, (htool tool (hfunctions tool hmem)).mp
      ⟨function, hfunction, hname⟩⟩
  · rintro ⟨tool, hmem, hrooted⟩
    obtain ⟨function, hfunction, hname⟩ :=
      (htool tool (hfunctions tool hmem)).mpr hrooted
    exact ⟨function, mem_flatMap.mpr ⟨tool, hmem, hfunction⟩, hname⟩

theorem rooted_delegationTools :
    ∀ tool ∈ delegationTools .responses profile,
      (objectRootedToolParameters
        (ToolShape.responses.schema tool)).isSome := by
  rw [delegationTools]
  split
  · intro tool htool
    obtain rfl := mem_singleton.mp htool
    rfl
  · rintro _ ⟨⟩

/-- The prompt of a merged body names every function that is sent if and only
if the first of each name has a schema that reads as an object. -/
theorem responsesPromptComplete_iff {canonical normalized : Json}
    (hsent : SentFunctions .responses
      (offeredFunctions .responses profile webSearchEnabled canonical)
      (delegationTools .responses profile) (requestTools normalized)) :
    (∀ name, name ∈ ((requestTools normalized).flatMap
        (grokFunctionTools profile)).filterMap ToolShape.responses.called ↔
      (ToolShape.responses.firstCalled name
        (offeredFunctions .responses profile webSearchEnabled
          canonical)).isSome) ↔
      ResponsesPromptComplete profile webSearchEnabled canonical := by
  have hfunctions : ∀ tool ∈ requestTools normalized,
      ToolShape.responses.IsFunction tool := fun tool htool =>
    isFunction_offeredFunctions tool (hsent.mem tool htool)
  constructor
  · intro hsame name tool hfirst
    have hsome := congrArg Option.isSome hfirst
    obtain ⟨seen, hseen, hname, hrooted⟩ :=
      (mem_prompt_responses hfunctions name).mp ((hsame name).mpr hsome)
    rcases hsent.unique seen hseen name hname with hunique | hlate
    · rw [hsent.first, hfirst] at hunique
      left
      rwa [some.inj hunique]
    · exact Or.inr ⟨seen, hlate, hname⟩
  · intro hcomplete name
    rw [mem_prompt_responses hfunctions, ← hsent.first]
    constructor
    · rintro ⟨tool, htool, hname, -⟩
      exact firstCalled_isSome.mpr ⟨tool, htool, hname⟩
    · intro hsome
      obtain ⟨tool, hfirst⟩ := isSome_iff_exists.mp hsome
      obtain ⟨hmem, hname⟩ := mem_of_firstCalled hfirst
      rw [hsent.first] at hfirst
      rcases hcomplete name tool hfirst with hrooted | ⟨late, hlate, hlateName⟩
      · exact ⟨tool, hmem, hname, hrooted⟩
      · exact ⟨late, hsent.late late hlate, hlateName,
          rooted_delegationTools late hlate⟩

namespace ToolShape

variable {shape : ToolShape} {tools : List Json} {name : String}

theorem calls_append {left right : List Json} :
    shape.Calls (left ++ right) name ↔
      shape.Calls left name ∨ shape.Calls right name := by
  simp only [Calls, mem_append, or_and_right, exists_or]

theorem calls_iff_mem (hfunctions : ∀ tool ∈ tools, shape.IsFunction tool)
    (hblank : isBlank name = false) :
    shape.Calls tools name ↔ name ∈ tools.filterMap functionToolName := by
  rw [mem_filterMap_functionToolName hfunctions, firstCalled_isSome]
  exact (and_iff_left hblank).symm

theorem calls_filter_unnamedIn
    (hfunctions : ∀ tool ∈ tools, shape.IsFunction tool)
    (hblank : isBlank name = false) (names : List String) :
    shape.Calls (tools.filter (unnamedIn names)) name ↔
      shape.Calls tools name ∧ name ∉ names := by
  have hfree (tool : Json) (htool : tool ∈ tools)
      (hname : shape.called tool = some name) :
      unnamedIn names tool = true ↔ name ∉ names := by
    rw [unnamedIn, (hfunctions tool htool).functionToolName, hname]
    simp [hblank]
  constructor
  · rintro ⟨tool, htool, hname⟩
    obtain ⟨htool, hunnamed⟩ := mem_filter.mp htool
    exact ⟨⟨tool, htool, hname⟩, (hfree tool htool hname).mp hunnamed⟩
  · rintro ⟨⟨tool, htool, hname⟩, hnames⟩
    exact ⟨tool, mem_filter.mpr ⟨htool, (hfree tool htool hname).mpr hnames⟩,
      hname⟩

end ToolShape

theorem calls_offeredFunctions_chat (hblank : isBlank name = false) :
    ToolShape.chat.Calls
        (offeredFunctions .chat profile webSearchEnabled body) name ↔
      (ToolShape.chat.Calls (wrapperFunctions .chat profile body) name ∧
        name ∉ customNames body) ∨
      ToolShape.chat.Calls (customFunctions .chat profile body ++
        addedFunctions .chat profile body) name := by
  have htranslated (declared : List Json) : ∀ tool ∈ declared.flatMap
      (ToolShape.chat.translate profile), ToolShape.chat.IsFunction tool := by
    intro tool htool
    obtain ⟨declaration, -, htool⟩ := mem_flatMap.mp htool
    exact isFunction_translate .chat profile declaration tool htool
  rw [offeredFunctions, declaredFunctions]
  simp only [addedFunctions, ToolShape.calls_append,
    ToolShape.calls_filter_unnamedIn (htranslated _) hblank,
    ← ToolShape.calls_iff_mem isFunction_expandedTopLevel hblank]
  rw [expandedTopLevel]
  simp only [ToolShape.calls_append,
    ToolShape.calls_filter_unnamedIn (htranslated _) hblank]
  rw [wrapperFunctions, customFunctions, customNames]
  tauto

/-- The declarations of a request are its free-form tools and the others. -/
theorem calls_own :
    ToolShape.chat.Calls ((requestTools body).flatMap (chatTools profile)) name ↔
      ToolShape.chat.Calls (wrapperFunctions .chat profile body ++
        customFunctions .chat profile body) name := by
  rw [ToolShape.calls_append]
  constructor
  · rintro ⟨function, hfunction, hname⟩
    obtain ⟨tool, htool, hfunction⟩ := mem_flatMap.mp hfunction
    cases hcustom : isCustomTool tool with
    | false =>
      exact Or.inl ⟨function, mem_flatMap.mpr
        ⟨tool, mem_filter.mpr ⟨htool, by simp [hcustom]⟩, hfunction⟩, hname⟩
    | true =>
      exact Or.inr ⟨function, mem_flatMap.mpr
        ⟨tool, mem_filter.mpr ⟨htool, hcustom⟩, hfunction⟩, hname⟩
  · rintro (⟨function, hfunction, hname⟩ | ⟨function, hfunction, hname⟩)
    · obtain ⟨tool, htool, hfunction⟩ := mem_flatMap.mp hfunction
      exact ⟨function, mem_flatMap.mpr
        ⟨tool, (mem_filter.mp htool).1, hfunction⟩, hname⟩
    · obtain ⟨tool, htool, hfunction⟩ := mem_flatMap.mp hfunction
      exact ⟨function, mem_flatMap.mpr
        ⟨tool, (mem_filter.mp htool).1, hfunction⟩, hname⟩

theorem nonblank_of_calls {tools : List Json} (hnamed : shape.AllNamed tools)
    (hcalls : shape.Calls tools name) : isBlank name = false := by
  obtain ⟨tool, htool, hname⟩ := hcalls
  obtain ⟨called, hcalled, hblank⟩ := hnamed tool htool
  rw [hname, some.injEq] at hcalled
  exact hcalled ▸ hblank

/-- No precedence drops a function with a blank name. -/
theorem calls_filter_of_blank {tools : List Json}
    (hfunctions : ∀ tool ∈ tools, shape.IsFunction tool)
    (hblank : isBlank name = true) (hcalls : shape.Calls tools name)
    (names : List String) :
    shape.Calls (tools.filter (unnamedIn names)) name := by
  obtain ⟨tool, htool, hname⟩ := hcalls
  refine ⟨tool, mem_filter.mpr ⟨htool, ?_⟩, hname⟩
  rw [unnamedIn, (hfunctions tool htool).functionToolName, hname]
  simp [hblank]

/-- A function with a blank name would be offered, and refused. -/
theorem nonblank_of_offered
    (hnamed : ToolShape.chat.AllNamed
      (offeredFunctions .chat profile webSearchEnabled body))
    (hcalls : ToolShape.chat.Calls (wrapperFunctions .chat profile body ++
      customFunctions .chat profile body ++
      addedFunctions .chat profile body) name) : isBlank name = false := by
  have htranslated (declared : List Json) : ∀ tool ∈ declared.flatMap
      (ToolShape.chat.translate profile), ToolShape.chat.IsFunction tool := by
    intro tool htool
    obtain ⟨declaration, -, htool⟩ := mem_flatMap.mp htool
    exact isFunction_translate .chat profile declaration tool htool
  by_contra hblank
  rw [Bool.not_eq_false] at hblank
  refine Bool.false_ne_true ((nonblank_of_calls hnamed ?_).symm.trans hblank)
  rw [offeredFunctions, declaredFunctions]
  simp only [addedFunctions, ToolShape.calls_append] at hcalls ⊢
  rw [expandedTopLevel, ToolShape.calls_append]
  rcases hcalls with (hcalls | hcalls) | hcalls | hcalls
  · exact Or.inl (Or.inl (Or.inl
      (calls_filter_of_blank (htranslated _) hblank hcalls _)))
  · exact Or.inl (Or.inl (Or.inr hcalls))
  · exact Or.inl (Or.inr (calls_filter_of_blank (htranslated _) hblank hcalls _))
  · exact Or.inr hcalls

/-- The prompt of a Chat request names every function that is sent if and only
if the request's own declarations do. -/
theorem chatPromptComplete_iff {canonical : Json}
    (hnamed : ToolShape.chat.AllNamed
      (offeredFunctions .chat profile webSearchEnabled canonical)) :
    (∀ name, ToolShape.chat.Calls
        ((requestTools canonical).flatMap (chatTools profile)) name ↔
      ToolShape.chat.Calls
        (offeredFunctions .chat profile webSearchEnabled canonical) name) ↔
      ChatPromptComplete profile canonical := by
  rw [ChatPromptComplete, ← forall_and]
  refine forall_congr' fun name => ?_
  rw [calls_own]
  cases hblank : isBlank name with
  | false =>
    rw [calls_offeredFunctions_chat hblank, ToolShape.calls_append,
      ToolShape.calls_append]
    tauto
  | true =>
    have hnonblank : ¬ isBlank name = false := by
      rw [hblank]
      exact Bool.noConfusion
    have hrefused : ¬ ToolShape.chat.Calls (wrapperFunctions .chat profile
        canonical ++ customFunctions .chat profile canonical ++
        addedFunctions .chat profile canonical) name :=
      mt (nonblank_of_offered hnamed) hnonblank
    have hunsent : ¬ ToolShape.chat.Calls
        (offeredFunctions .chat profile webSearchEnabled canonical) name :=
      mt (nonblank_of_calls hnamed) hnonblank
    rw [ToolShape.calls_append, ToolShape.calls_append] at hrefused
    rw [ToolShape.calls_append, ToolShape.calls_append]
    tauto

/-- The prompt of a translated route names the functions that are sent, and no
others, exactly where it is complete. -/
theorem promptNames_iff {crates : AdapterCrates} {guidance : EvalGuidance}
    {original : Json} {route : ProfileAdapterRoute} {profile : HarnessProfile}
    {environment : ExecutionEnvironment} {catalogEntry : Option Json}
    {webSearchEnabled : Bool} {replay : ReplayContext}
    {prepared : PreparedUpstreamRequest} {canonical normalized : Json}
    (hroute : TranslatedRoute route profile)
    (hdistinct : original.distinct = true)
    (hcanonical : canonicalRequest route original = .ok canonical)
    (hnormalized : normalizedRequest crates.toCrates route profile
      webSearchEnabled canonical = .ok normalized)
    (hprepared : prepareUpstreamRequestDetails crates guidance original route
      profile environment catalogEntry webSearchEnabled replay = .ok prepared)
    (hplain : PlainNames crates route route.wire.shape (offeredFunctions
      route.wire.shape profile webSearchEnabled canonical)) :
    (∀ name, name ∈ (modelVisibleTools normalized route.wire profile).1.map
        ToolSnapshot.name ↔ name ∈ sentNames route.wire.shape prepared.body) ↔
      PromptComplete route.wire profile webSearchEnabled canonical := by
  have htidy := Tidy.of_distinct hdistinct
  simp only [modelVisibleTools_names,
    mem_sentNames_iff hroute htidy hcanonical hprepared hplain]
  cases hwire : route.wire with
  | responses =>
    exact responsesPromptComplete_iff (sentFunctions_responses
      (tidy_canonicalRequest htidy hcanonical) hroute.provider hwire hnormalized)
  | chat =>
    obtain ⟨hsame, tools, change, hsent, -⟩ :=
      exists_requestTools_prepared_chat hroute htidy hcanonical hprepared hwire
    obtain rfl := Except.ok.inj (hsame.symm.trans hnormalized)
    refine Iff.trans (forall_congr' fun name => ?_)
      (chatPromptComplete_iff hsent.named)
    rw [firstCalled_isSome, mem_filterMap]
    rfl

theorem startsWith_longer {front : String} (rest : String)
    (hfront : startsWith text front = false) :
    startsWith text (front ++ rest) = false := by
  rw [startsWith, Bool.eq_false_iff, ne_eq, List.isPrefixOf_iff_prefix] at hfront ⊢
  rw [String.toList_append]
  exact fun hprefix => hfront ((prefix_append _ _).trans hprefix)

theorem startsWith_of_heads {front : String} {c d : Char}
    {left right : List Char} (htext : text.toList = c :: left)
    (hfront : front.toList = d :: right) (hne : d ≠ c) :
    startsWith text front = false := by
  rw [startsWith, htext, hfront, List.isPrefixOf, beq_false_of_ne hne,
    Bool.false_and]

theorem isBlank_append (left right : String) :
    isBlank (left ++ right) = (isBlank left && isBlank right) := by
  simp [isBlank, Text.isBlank, String.toList_append]

theorem isSummaryItem_of_text {item : Json} (htext : itemText item = some text)
    (hplain : startsWith text officialSummaryPrefix = false) :
    isSummaryItem item = false := by
  rw [isSummaryItem, htext, any_some, hplain, Bool.and_false]

end

/-- One system message is no reason to refuse a transcript for its
checkpoints. -/
theorem checkActiveCheckpointCount_of_one_system {crates : Crates}
    {messages : List TranscriptMessage}
    (hsystem : messages.countP TranscriptMessage.isSystem ≤ 1)
    (hrest : (messages.filter (!·.isSystem)).countP
      (isActiveCheckpoint crates) = 0) :
    checkActiveCheckpointCount crates messages = .ok () := by
  have hsplit : messages.countP (isActiveCheckpoint crates) ≤
      messages.countP TranscriptMessage.isSystem +
        (messages.filter (!·.isSystem)).countP (isActiveCheckpoint crates) := by
    clear hsystem hrest
    induction messages with
    | nil => exact Nat.le_refl 0
    | cons message rest ih =>
      rw [countP_cons, countP_cons]
      cases hkind : message.isSystem with
      | true =>
        rw [filter_cons_of_neg (by simp [hkind]), if_pos rfl]
        split <;> omega
      | false =>
        rw [filter_cons_of_pos (by simp [hkind]), countP_cons]
        simp only [Bool.false_eq_true, if_false]
        omega
  simp only [checkActiveCheckpointCount]
  rw [if_neg (by omega)]

theorem isBlank_toolContinuityText : isBlank toolContinuityText = false := by
  have hfirst : isBlank "Tool-use continuity for this Codex task:" = false := by
    have htext : "Tool-use continuity for this Codex task:".toList = _ :=
      String.toList_ofList
    rw [isBlank, htext]
    rfl
  have hrest (rest : String) :
      isBlank ("Tool-use continuity for this Codex task:" ++ "\n" ++ rest) =
        false := by
    rw [isBlank_append, isBlank_append, hfirst, Bool.false_and, Bool.false_and]
  exact (congrArg isBlank String.intercalate_cons_cons).trans (hrest _)

/-! A function that is declared in the input is offered behind the prompt's
back. -/

namespace HiddenTool

/-- The function of an `additional_tools` item. -/
def tool : Json :=
  .obj [("type", .str "function"), ("name", .str "grep"),
    ("parameters", typeSchema "object")]

def message : Json :=
  .obj [("type", .str "message"), ("role", .str "user"), ("content", .str "hi")]

def request : Json :=
  .obj [("model", .str "m"), ("input", .arr
    [.obj [("type", .str "additional_tools"), ("tools", .arr [tool])], message])]

def crates : AdapterCrates where
  fromStr _ := none
  toStr _ := ""
  sha256 _ := []
  recompress _ _ _ := none
  parseUrl _ := none
  printUrl _ := ""

def route : ProfileAdapterRoute where
  upstreamModel := "m"
  reasoning := false
  vision := false
  providerKind := .openAiCompatible
  wire := .chat
  baseUrl := "https://example.test/v1"

def provenance : ChatMessageProvenance := ({} : ReplayContext).provenanceForItem 1

/-- The transcript behind a system message. -/
def transcript (text : String) : ChatProjection :=
  [(.system (.str text), .synthetic), (.user (.str "hi"), provenance)]

theorem not_startsWith_summary :
    startsWith "hi" officialSummaryPrefix = false := by
  have hfront : startsWith "hi"
      "Another language model started to solve this problem and " = false :=
    startsWith_of_heads String.toList_ofList String.toList_ofList (by decide)
  exact startsWith_longer _ (startsWith_longer _ (startsWith_longer _
    (startsWith_longer _ (startsWith_longer _ (startsWith_longer _ hfront)))))

theorem isSummaryItem_message : isSummaryItem message = false :=
  isSummaryItem_of_text rfl not_startsWith_summary

theorem trim_hi : Text.trim "hi".toList = ['h', 'i'] := by
  have htext : "hi".toList = _ := String.toList_ofList
  rw [htext]
  rfl

theorem isCheckpointResumeText_hi : isCheckpointResumeText "hi" = false := by
  have hfront : chatCheckpointResumeText.toList = 'C' :: _ :=
    Text.toList_append_head (Text.toList_append_head String.toList_ofList _) _
  rw [isCheckpointResumeText, decide_eq_false_iff_not, trim_hi]
  exact fun heq => absurd (List.cons.inj (heq.trans hfront)).1 (by decide)

theorem isSyntheticBridgeText_hi : isSyntheticBridgeText "hi" = false := by
  have hfront : neutralUserBridgeText.toList = 'C' :: _ :=
    Text.toList_append_head String.toList_ofList _
  rw [isSyntheticBridgeText, decide_eq_false_iff_not, trim_hi]
  exact fun heq => absurd (List.cons.inj (heq.trans hfront)).1 (by decide)

theorem projectItem_message (text : String) :
    projectItem crates.toCrates false false
        { projection := [(.system (.str text), .synthetic)] } message provenance =
      .ok { projection := transcript text } := by
  have hcanonical : isCanonicalCheckpointItem message = false := by
    rw [isCanonicalCheckpointItem, isSummaryItem_message]
    decide
  rw [projectItem]
  simp only [hcanonical, isSummaryItem_message]
  rfl

theorem chatTranscript_eq {text : String} (hblank : isBlank text = false) :
    chatTranscript crates.toCrates {} [(.system (.str text), .synthetic)]
        [(message, provenance)] false false = .ok (transcript text) := by
  have hprojected : projectChatItems crates.toCrates
      [(.system (.str text), .synthetic)] [(message, provenance)] false false =
        .ok (transcript text) := by
    rw [projectChatItems, projectItems, projectItem_message]
    rfl
  have hcollapsed : collapseSystemMessagesToHead crates.toCrates
      (transcript text) = transcript text := by
    simp [collapseSystemMessagesToHead, transcript, systemText, contentToText,
      TranscriptMessage.isSystem, asStr, hblank]
  have hreconciled : reconcilePartialChatToolContinuations
      (coalesceAdjacentChatAssistantMessages (transcript text)) =
        .ok (transcript text) := rfl
  have hresume : applyCheckpointResumeTail crates.toCrates (transcript text) =
      transcript text := by
    have hplain : (TranscriptMessage.user (.str "hi")).plainText
        crates.toCrates = "hi" := rfl
    simp [applyCheckpointResumeTail, transcript, TranscriptMessage.isUser,
      lastSemanticMessage, TranscriptMessage.isSystem, isChatCheckpointMessage,
      TranscriptMessage.isAssistant, hplain, isCheckpointResumeText_hi]
  rw [chatTranscript, hprojected]
  change reconcilePartialChatToolContinuations
    (coalesceAdjacentChatAssistantMessages (transcript text)) >>= _ = _
  rw [hreconciled]
  change Except.ok (applyCheckpointResumeTail _ (applyNeutralUserBridge _ _
    (collapseSystemMessagesToHead _ (transcript text)))) = _
  rw [hcollapsed, show applyNeutralUserBridge crates.toCrates {}
    (transcript text) = transcript text from rfl, hresume]


theorem activeUserOccurrences_pair (crates : Crates) (system content : Json)
    (first second : ChatMessageProvenance)
    (hbridge : isSyntheticBridgeText
      ((TranscriptMessage.user content).plainText crates) = false)
    (hpreface : startsWith ((TranscriptMessage.user content).plainText crates)
      chatCheckpointPreface = false) :
    activeUserOccurrences crates
        [(.system system, first), (.user content, second)] =
      second.occurrenceId.toList := by
  rw [activeUserOccurrences, filterMap_cons, filterMap_cons]
  simp only [TranscriptMessage.isUser, hbridge, hpreface, Bool.not_false,
    Bool.and_self, if_true, Bool.false_and, Bool.false_eq_true, if_false]
  cases second.occurrenceId with
  | none => rfl
  | some _ => rfl

theorem checked (text : String) :
    checkChatTranscriptInvariants crates.toCrates (transcript text) {} = .ok () := by
  have hplain : (TranscriptMessage.user (.str "hi")).plainText
      crates.toCrates = "hi" := rfl
  have hpreface : startsWith "hi" chatCheckpointPreface = false :=
    startsWith_of_heads String.toList_ofList String.toList_ofList (by decide)
  have hcount : checkActiveCheckpointCount crates.toCrates
      ((transcript text).map Prod.fst) = .ok () := by
    refine checkActiveCheckpointCount_of_one_system (Nat.le_refl 1) ?_
    simp [transcript, TranscriptMessage.isSystem, isActiveCheckpoint, hplain,
      hpreface, not_startsWith_summary]
  have hbridge := isSyntheticBridgeText_hi
  have hshape : checkChatMessageShape crates.toCrates
      ((transcript text).map Prod.fst) = .ok () := rfl
  have hpairing : checkToolPairing ((transcript text).map Prod.fst) = .ok () := rfl
  have hids : activeUserOccurrences crates.toCrates (transcript text) =
      provenance.occurrenceId.toList :=
    activeUserOccurrences_pair _ _ _ _ _ hbridge hpreface
  have hduplicate : checkDuplicateActiveUserOccurrences crates.toCrates
      (transcript text) = .ok () := by
    rw [checkDuplicateActiveUserOccurrences, hids]
    rfl
  have htail : checkCheckpointIsNotTheTail crates.toCrates (transcript text) =
      .ok () := rfl
  have hunauthorized : checkUnauthorizedBridge crates.toCrates
      ((transcript text).map Prod.fst) {} = .ok () := by
    simp [checkUnauthorizedBridge, transcript, isBridge,
      TranscriptMessage.isUser, hplain, hbridge]
  rw [checkChatTranscriptInvariants]
  simp only [hshape, hpairing, hduplicate, hcount, htail, hunauthorized]
  rfl

def profile : HarnessProfile := .generic .chat

theorem canonicalRequest_eq : canonicalRequest route request = .ok request := by
  decide

theorem chatInputItems_eq :
    chatInputItems crates.toCrates profile {} request =
      .ok ([(message, provenance)], [tool]) := by
  decide

def sent : Json :=
  ToolShape.chat.tool (.str "grep") (.str "") (typeSchema "object")

theorem chatRequestTools_eq :
    chatRequestTools crates.toCrates profile (requestTools request) [tool] =
      .ok [sent] := by
  decide

theorem chatTranscript_sent :
    chatTranscript crates.toCrates {} (leadingSystem request [sent])
        [(message, provenance)] false false =
      .ok (transcript toolContinuityText) :=
  chatTranscript_eq isBlank_toolContinuityText

theorem visible_nil : (modelVisibleTools request .chat profile).1 = [] := rfl

theorem exists_prepared : ∃ prepared, prepareUpstreamRequestDetails crates {}
    request route profile .posixReference none false {} = .ok prepared := by
  obtain ⟨prepared, hprepared⟩ := exists_prepareChatRequest route
    (requestEffort request) rfl chatInputItems_eq chatRequestTools_eq
    chatTranscript_sent (checked toolContinuityText)
  refine ⟨prepared, (prepare_iff crates {} request .posixReference none false {}
    rfl canonicalRequest_eq).mpr ⟨rfl, request, _, rfl, rfl, ?_⟩⟩
  rw [instructedRequest]
  change prepareChatRequest crates route profile {} (requestEffort request)
    (applyRequestTimeInstructions profile
      (modelVisibleTools request .chat profile).1 .posixReference none {}
      request) = _
  rw [visible_nil, applyRequestTimeInstructions_nil]
  exact hprepared

theorem routed : TranslatedRoute route profile := ⟨rfl, by decide, by decide⟩

theorem plainNames : PlainNames crates route .chat
    (offeredFunctions .chat profile false request) := by
  intro hendpoint
  exact absurd hendpoint (by decide)

theorem offered_grep : (ToolShape.chat.firstCalled "grep"
    (offeredFunctions .chat profile false request)).isSome = true := by
  decide

/-- The function is sent and not described. -/
theorem prompt_misses_tool : ∃ prepared,
    prepareUpstreamRequestDetails crates {} request route profile
        .posixReference none false {} = .ok prepared ∧
      "grep" ∈ sentNames .chat prepared.body ∧
      "grep" ∉ (modelVisibleTools request .chat profile).1.map
        ToolSnapshot.name := by
  obtain ⟨prepared, hprepared⟩ := exists_prepared
  refine ⟨prepared, hprepared, ?_, by rw [visible_nil]; exact not_mem_nil⟩
  exact (mem_sentNames_iff routed
    (Tidy.of_distinct (by decide)) canonicalRequest_eq hprepared
    plainNames "grep").mpr offered_grep

/-- The prompt is not complete, so it does not name what is sent. -/
theorem prompt_differs : ∃ prepared,
    prepareUpstreamRequestDetails crates {} request route profile
        .posixReference none false {} = .ok prepared ∧
      ¬ ∀ name, name ∈ (modelVisibleTools request .chat profile).1.map
          ToolSnapshot.name ↔ name ∈ sentNames .chat prepared.body := by
  obtain ⟨prepared, hprepared⟩ := exists_prepared
  refine ⟨prepared, hprepared, fun hsame => ?_⟩
  have hcomplete := (promptNames_iff routed
    (by decide) canonicalRequest_eq rfl hprepared plainNames).mp hsame
  obtain ⟨tool, htool, -⟩ := hcomplete.1 "grep"
    ⟨sent, mem_append_left _ (mem_singleton.mpr rfl), rfl⟩
  cases htool

end HiddenTool

end Vellum.Proxy
