/-
The text of a tool result on its way to a provider (`profile_adapter.rs`).
Results of functions and of the shell keep their text.  The result of a custom
tool or of a tool search is serialized once more, so a string arrives with its
quotes and its escapes.
-/
import Vellum.Library.JsonFields
import Vellum.Library.JsonText
import Vellum.Proxy.ToolRoundTrip

namespace Vellum.Proxy

open List Json

/-- The items that carry the result of a tool. -/
def outputKinds : List String :=
  ["function_call_output", "custom_tool_call_output",
    "local_shell_call_output", "tool_search_output"]

/-- What the JSON crate writes for a string. -/
def Crates.QuotesStrings (crates : Crates) : Prop :=
  ∀ text, (crates.toStr (.str text)).toList = JsonText.quote text

/-- An item as the Responses route of Grok has it. -/
def grokItem (crates : Crates) (profile : HarnessProfile) (item : Json) :
    Option Json :=
  match normalizeGrokInputItem crates profile item with
  | .ok (sent, _) => sent
  | .error _ => none

/-- An item as a compatible Responses route has it. -/
def compatibleItem (crates : Crates) (profile : HarnessProfile) (item : Json) :
    Option Json :=
  ((grokItem crates profile item).map (lowerFunctionOutput crates)).filter
    fun sent => !isInstructionItem sent

/-! The transcript only grows while it is projected. -/

namespace ProjectionState

theorem flushAssistantTurn_appends (replayReasoning : Bool)
    (state : ProjectionState) :
    state.projection <+: (state.flushAssistantTurn replayReasoning).projection := by
  rw [flushAssistantTurn]
  split
  · exact prefix_rfl
  · simp only []
    split
    · exact prefix_rfl
    · exact ⟨_, rfl⟩

theorem flushChatToolImages_appends (state : ProjectionState) :
    state.projection <+: state.flushChatToolImages.projection := by
  rw [flushChatToolImages]
  split
  · exact prefix_rfl
  · exact ⟨_, rfl⟩

end ProjectionState

section Projection

variable {crates : Crates} {replayReasoning vision : Bool}

variable {state : ProjectionState} {item : Json}
  {provenance : ChatMessageProvenance}

theorem projectItem_appends {next : ProjectionState}
    (hnext : projectItem crates replayReasoning vision state item provenance =
      .ok next) : state.projection <+: next.projection := by
  rw [projectItem] at hnext
  simp only [] at hnext
  have hflushed : state.projection <+: (if isToolOutputItem item then state
      else state.flushChatToolImages).projection := by
    split
    · exact prefix_rfl
    · exact state.flushChatToolImages_appends
  generalize (if isToolOutputItem item then state
    else state.flushChatToolImages) = flushed at hnext hflushed
  refine hflushed.trans ?_
  have hturn := flushed.flushAssistantTurn_appends replayReasoning
  split at hnext
  · obtain rfl := Except.ok.inj hnext
    exact hturn.trans ⟨_, rfl⟩
  · split at hnext
    · obtain rfl := Except.ok.inj hnext
      exact prefix_rfl
    · split at hnext
      · obtain rfl := Except.ok.inj hnext
        exact prefix_rfl
      · split at hnext
        · obtain ⟨output, -, hpushed⟩ := exists_of_map_eq_ok hnext
          obtain rfl := hpushed
          exact hturn.trans ⟨_, rfl⟩
        · split at hnext
          · split at hnext
            · obtain rfl := Except.ok.inj hnext
              split
              · exact prefix_rfl
              · exact prefix_rfl
            · obtain rfl := Except.ok.inj hnext
              exact prefix_rfl
          · split at hnext
            · obtain rfl := Except.ok.inj hnext
              exact prefix_rfl
            · split at hnext
              · obtain rfl := Except.ok.inj hnext
                exact hturn.trans ⟨_, rfl⟩
              · obtain rfl := Except.ok.inj hnext
                exact prefix_rfl

theorem projectItems_appends {items : List (Json × ChatMessageProvenance)}
    {final : ProjectionState}
    (hfinal : projectItems crates replayReasoning vision state items =
      .ok final) : state.projection <+: final.projection := by
  induction items generalizing state with
  | nil =>
    obtain rfl := Except.ok.inj hfinal
    exact prefix_rfl
  | cons entry rest ih =>
    rw [projectItems] at hfinal
    obtain ⟨next, hnext, hfinal⟩ := exists_of_bind_eq_ok hfinal
    exact (projectItem_appends hnext).trans (ih hfinal)

/-- The call that a tool message answers. -/
def chatCallId (item : Json) : String :=
  ((item.get "call_id").bind Json.asStr).getD "call"

theorem projectItem_tool {text : String} (htool : isToolOutputItem item = true)
    (hcheckpoint : isCanonicalCheckpointItem item = false)
    (hsummary : isSummaryItem item = false)
    (houtput : item.get "output" = some (.str text)) :
    ∃ next, projectItem crates replayReasoning vision state item provenance =
        .ok next ∧
      (.tool (some (chatCallId item)) (.str text), provenance) ∈
        next.projection := by
  have hkind : ∀ kind ∈ ["compaction", "context_compaction",
      "compaction_trigger", "function_call", "custom_tool_call"],
      itemType item ≠ some kind := by
    intro kind hmem htype
    rw [isToolOutputItem, htype] at htool
    have hother : ∀ kind ∈ ["compaction", "context_compaction",
        "compaction_trigger", "function_call", "custom_tool_call"],
        kind ∉ ["function_call_output", "custom_tool_call_output",
          "tool_search_output"] := by decide
    exact hother kind hmem (of_decide_eq_true htool)
  have hplain := hkind
  simp only [mem_cons, not_mem_nil, or_false, forall_eq_or_imp,
    forall_eq] at hplain
  obtain ⟨hfirst, hsecond, hthird, hfourth, hfifth⟩ := hplain
  rw [projectItem]
  simp only [htool, hcheckpoint, hsummary, hfirst, hsecond, hthird, hfourth,
    hfifth, houtput, chatToolOutput, Bool.false_and, Bool.or_self,
    Bool.false_eq_true, if_false, if_true, or_self, Option.getD_some]
  exact ⟨_, rfl, mem_append_right _ mem_cons_self⟩

theorem mem_projectChatItems {leading projection : ChatProjection}
    {front rest : List (Json × ChatMessageProvenance)}
    {pair : TranscriptMessage × ChatMessageProvenance}
    (hpair : ∀ state : ProjectionState, ∃ next,
      projectItem crates replayReasoning vision state item provenance =
        .ok next ∧ pair ∈ next.projection)
    (hprojection : projectChatItems crates leading
      (front ++ (item, provenance) :: rest) replayReasoning vision =
        .ok projection) : pair ∈ projection := by
  obtain ⟨final, hfinal, hflushed⟩ := exists_of_map_eq_ok hprojection
  have hmem : pair ∈ final.projection := by
    clear hprojection hflushed
    generalize ({ projection := leading } : ProjectionState) = state at hfinal
    induction front generalizing state with
    | nil =>
      rw [nil_append, projectItems] at hfinal
      obtain ⟨next, hnext, hfinal⟩ := exists_of_bind_eq_ok hfinal
      obtain ⟨known, hknown, hin⟩ := hpair state
      obtain rfl := Except.ok.inj (hnext.symm.trans hknown)
      exact (projectItems_appends hfinal).subset hin
    | cons entry front ih =>
      rw [cons_append, projectItems] at hfinal
      obtain ⟨next, -, hfinal⟩ := exists_of_bind_eq_ok hfinal
      exact ih next hfinal
  obtain rfl := hflushed
  exact (ProjectionState.flushChatToolImages_appends _).subset
    ((ProjectionState.flushAssistantTurn_appends _ _).subset hmem)

end Projection

/-! One item on each route. -/

/-- What is claimed of a tool result with a text. -/
structure TextSurvives (crates : Crates) (profile : HarnessProfile)
    (item : Json) (text : String) : Prop where
  grok : ∃ sent, grokItem crates profile item = some sent ∧
    sent.get "output" = some (.str text)
  compatible : ∃ sent, compatibleItem crates profile item = some sent ∧
    sent.get "output" = some (.str text)
  chat : ∃ sent, grokItem crates profile item = some sent ∧
    ∀ leading front rest provenance replayReasoning vision projection,
      projectChatItems crates leading (front ++ (sent, provenance) :: rest)
        replayReasoning vision = .ok projection →
      ∃ callId, (.tool (some callId) (.str text), provenance) ∈ projection

/-- The results whose text is not serialized: those of the shell, and those of
functions that are neither taken for instructions nor for a summary. -/
def carriesText (item : Json) : Bool :=
  decide (itemType item = some "local_shell_call_output") ||
    (decide (itemType item = some "function_call_output") &&
      !isInstructionItem item && !isSummaryItem item)

/-- A result in its public form, with a text of its own. -/
theorem publicOutput_survives {crates : Crates} {profile : HarnessProfile}
    {item callId : Json} {text : String}
    (hsent : grokItem crates profile item =
      some (publicOutput callId (.str text))) :
    TextSurvives crates profile item text := by
  have htool : isToolOutputItem (publicOutput callId (.str text)) = true := rfl
  have hplain : isCanonicalCheckpointItem
      (publicOutput callId (.str text)) = false := rfl
  have hsummary : isSummaryItem (publicOutput callId (.str text)) = false := rfl
  have houtput : (publicOutput callId (.str text)).get "output" =
      some (.str text) := rfl
  refine ⟨⟨_, hsent, houtput⟩, ?_, _, hsent, ?_⟩
  · rw [compatibleItem, hsent]
    exact ⟨_, rfl, rfl⟩
  · intro leading front rest provenance replayReasoning vision projection
      hprojection
    exact ⟨_, mem_projectChatItems (fun state =>
      projectItem_tool htool hplain hsummary houtput) hprojection⟩

section Kinds

variable {crates : Crates} {profile : HarnessProfile} {item : Json}
  {text : String}

theorem itemType_eq_iff {kind : String} :
    itemType item = some kind ↔ item.get "type" = some (.str kind) := by
  rw [itemType]
  cases item.get "type" with
  | none => simp
  | some value => cases value <;> simp [asStr]

theorem grokItem_shellOutput (htidy : item.Tidy)
    (htype : item.get "type" = some (.str "local_shell_call_output"))
    (houtput : item.get "output" = some (.str text)) :
    ∃ callId, grokItem crates profile item =
      some (publicOutput callId (.str text)) := by
  obtain ⟨fields, rfl, hvisible⟩ := exists_visible htidy htype
  rw [← hvisible "type" (by decide) (by decide)] at htype
  rw [← hvisible "output" (by decide) (by decide)] at houtput
  rw [grokItem]
  simp [normalizeGrokInputItem, itemType, htype, asStr, houtput]
  exact ⟨_, rfl⟩

/-- The text of a custom tool's or a tool search's result is serialized. -/
theorem grokItem_privateOutput {kind : String} (htidy : item.Tidy)
    (hkind : kind = "custom_tool_call_output" ∨ kind = "tool_search_output")
    (htype : item.get "type" = some (.str kind))
    (houtput : item.get "output" = some (.str text)) :
    ∃ callId, grokItem crates profile item =
      some (publicOutput callId (.str (crates.toStr (.str text)))) := by
  obtain ⟨fields, rfl, hvisible⟩ := exists_visible htidy htype
  rw [← hvisible "type" (by decide) (by decide)] at htype
  rw [← hvisible "output" (by decide) (by decide)] at houtput
  rw [grokItem]
  rcases hkind with rfl | rfl
  · simp [normalizeGrokInputItem, itemType, htype, asStr, houtput]
    exact ⟨_, rfl⟩
  · simp [normalizeGrokInputItem, itemType, htype, asStr, houtput]
    exact ⟨_, rfl⟩

theorem length_le_escaped (chars : List Char) :
    chars.length ≤ (chars.flatMap JsonText.escape).length := by
  induction chars with
  | nil => exact Nat.le_refl 0
  | cons c rest ih =>
    have hescape : JsonText.escape c ≠ [] := by
      intro hnil
      have hread := JsonText.unescape_escape c []
      rw [hnil] at hread
      cases hread
    have hpos := length_pos_of_ne_nil hescape
    rw [length_cons, flatMap_cons, length_append]
    omega

theorem quoted_ne (hquotes : crates.QuotesStrings) (text : String) :
    crates.toStr (.str text) ≠ text := by
  intro heq
  have hquoted := hquotes text
  have hlength := length_le_escaped text.toList
  rw [heq, JsonText.quote] at hquoted
  have hsame := congrArg List.length hquoted
  simp only [cons_append, length_cons, length_append,
    length_nil] at hsame
  omega

theorem not_survives_of_quoted (hquotes : crates.QuotesStrings)
    {callId : Json} (hsent : grokItem crates profile item =
      some (publicOutput callId (.str (crates.toStr (.str text))))) :
    ¬ TextSurvives crates profile item text := by
  intro hsurvives
  obtain ⟨sent, hitem, houtput⟩ := hsurvives.grok
  obtain rfl := Option.some.inj (hsent.symm.trans hitem)
  have hvalue : some (Json.str (crates.toStr (.str text))) =
      some (.str text) := houtput
  exact quoted_ne hquotes text (Json.str.inj (Option.some.inj hvalue))

/-! A function's result keeps its fields. -/

theorem get_removed_of_mem {keys : List String} {key : String}
    {fields : List (String × Json)}
    (hnodup : (fields.map Prod.fst).Nodup)
    (hkey : key ∈ keys ∨ key ∉ fields.map Prod.fst) :
    (obj (keys.foldl (fun left key => removeField key left) fields)).get key =
      none := by
  induction keys generalizing fields with
  | nil => exact get_eq_none_iff.mpr (hkey.resolve_left not_mem_nil)
  | cons first keys ih =>
    refine ih (nodup_removeField hnodup first) ?_
    by_cases hfirst : key = first
    · rw [hfirst]
      exact Or.inr (notMem_removeField hnodup first)
    · rcases hkey with hmem | habsent
      · exact Or.inl ((mem_cons.mp hmem).resolve_left hfirst)
      · refine Or.inr fun hmem => habsent ?_
        obtain ⟨field, hfield, hname⟩ := mem_map.mp hmem
        exact mem_map.mpr
          ⟨field, mem_of_mem_removeField hfield, hname⟩

/-- No checkpoint's mark is left in the metadata. -/
theorem metadata_visible {fields : List (String × Json)}
    (hdistinct : (obj fields).distinct = true) :
    (((obj (stripVellumCheckpointMetadata (stripInternalFields fields))).get
      "metadata").bind (Json.get "vellum_checkpoint")).bind asStr ≠
        some "canonical" := by
  have hnodup := (distinct_obj_iff.mp hdistinct).1
  have hnodup' := nodup_stripInternalFields hnodup
  have hmetadata : (obj (stripInternalFields fields)).get "metadata" =
      (obj fields).get "metadata" := by
    have hkeep : (!startsWith "metadata" "internal_") = true := by decide
    exact get_filter_name (fun key => !startsWith key "internal_") hkeep fields
  rw [stripVellumCheckpointMetadata]
  split
  · rename_i own hown
    have hownNodup : (own.map Prod.fst).Nodup := by
      rw [hmetadata] at hown
      exact (distinct_obj_iff.mp (distinct_get hdistinct hown)).1
    split
    · extract_lets rest
      split
      · rw [get_eq_none_iff.mpr (notMem_removeField hnodup' "metadata")]
        simp
      · have hgone : (obj rest).get "vellum_checkpoint" = none :=
          get_removed_of_mem hownNodup (Or.inl (by decide))
        rw [get_insertField, if_pos rfl, Option.bind_some, hgone]
        simp
    · rename_i hmark
      rw [Bool.or_eq_true, not_or, decide_eq_true_eq] at hmark
      rw [hown]
      exact hmark.1
  · rename_i hother
    cases hget : (obj (stripInternalFields fields)).get "metadata" with
    | none => simp
    | some value =>
      cases value with
      | obj own => exact absurd hget (hother own)
      | null | bool | num | str | arr => simp [Json.get]

/-- A function's result in its public form. -/
structure PublicResult (item sent : Json) (text : String) : Prop where
  tidy : sent.Tidy
  type : sent.get "type" = some (.str "function_call_output")
  output : sent.get "output" = some (.str text)
  instruction : isInstructionItem sent = isInstructionItem item
  summary : isSummaryItem sent = isSummaryItem item
  unmarked : ((sent.get "metadata").bind (Json.get "vellum_checkpoint")).bind
    asStr ≠ some "canonical"

theorem grokItem_functionOutput (hdistinct : item.distinct = true)
    (htype : item.get "type" = some (.str "function_call_output"))
    (houtput : item.get "output" = some (.str text)) :
    ∃ sent, grokItem crates profile item = some sent ∧
      PublicResult item sent text := by
  have htidy := Tidy.of_distinct hdistinct
  cases item with
  | obj fields =>
    have hnodup := htidy fields rfl
    have hvisible (key : String) (hinternal : startsWith key "internal_" =
        false) (hmeta : key ≠ "metadata") := get_visible hnodup hinternal hmeta
    have hvisibleType := hvisible "type" (by decide) (by decide)
    have hrole := hvisible "role" (by decide) (by decide)
    have hcontent := hvisible "content" (by decide) (by decide)
    rw [htype] at hvisibleType
    refine ⟨.obj (stripVellumCheckpointMetadata (stripInternalFields fields)),
      ?_, ?_⟩
    · rw [grokItem]
      simp [normalizeGrokInputItem, itemType, hvisibleType, asStr]
    · exact
        { tidy := tidy_obj_iff.mpr (nodup_visible hnodup)
          type := hvisibleType
          output := (hvisible "output" (by decide) (by decide)).trans houtput
          instruction := by
            rw [isInstructionItem, isInstructionItem, hrole]
          summary := by
            rw [isSummaryItem, isSummaryItem, itemText, itemText, hrole,
              hcontent]
          unmarked := metadata_visible hdistinct }
  | null | bool | num | str | arr => cases htype

section Result

variable {sent : Json} (hresult : PublicResult item sent text)

include hresult

theorem PublicResult.isToolOutput : isToolOutputItem sent = true := by
  rw [isToolOutputItem, itemType, hresult.type]
  rfl

theorem PublicResult.not_checkpoint
    (hsummary : isSummaryItem item = false) :
    isCanonicalCheckpointItem sent = false := by
  rw [isCanonicalCheckpointItem, hresult.summary, hsummary, itemType,
    hresult.type, decide_eq_false hresult.unmarked]
  rfl

/-- On a compatible route the text is what it was. -/
theorem PublicResult.lowered :
    (lowerFunctionOutput crates sent).get "output" = some (.str text) ∧
      isInstructionItem (lowerFunctionOutput crates sent) =
        isInstructionItem item := by
  have htidy := hresult.tidy
  have htype := hresult.type
  have houtput := hresult.output
  have hrole := hresult.instruction
  cases sent with
  | obj fields =>
    have hkind : itemType (obj fields) = some "function_call_output" := by
      rw [itemType, htype]
      rfl
    rw [lowerFunctionOutput, if_pos hkind]
    simp only []
    rw [houtput]
    refine ⟨?_, ?_⟩
    · rw [get_insertField, if_pos rfl]
      rfl
    · rw [← hrole, isInstructionItem, isInstructionItem, get_insertField,
        if_neg (by decide), get_removeField (htidy fields rfl) (by decide)]
  | null | bool | num | str | arr => cases htype

theorem PublicResult.projected_summary (hsummary : isSummaryItem item = true)
    (provenance : ChatMessageProvenance) :
    ∃ content, projectChatItems crates [] [(sent, provenance)] false false =
      .ok [(.assistant content [] none, provenance)] := by
  have htool := hresult.isToolOutput
  have hsent := hresult.summary.trans hsummary
  refine ⟨chatCheckpointPreface ++ "\n\n" ++
    ((sent.get "content").map (contentToPlainString crates)).getD "", ?_⟩
  rw [projectChatItems, projectItems, projectItem]
  simp only [htool, hsent, Bool.or_true, if_true]
  rfl

end Result

/-- The text survives exactly if it is carried as text. -/
theorem textSurvives_iff (hquotes : crates.QuotesStrings)
    (hdistinct : item.distinct = true)
    (hkind : ∃ kind ∈ outputKinds, itemType item = some kind)
    (houtput : item.get "output" = some (.str text)) :
    TextSurvives crates profile item text ↔ carriesText item = true := by
  have htidy := Tidy.of_distinct hdistinct
  obtain ⟨kind, hmem, hitem⟩ := hkind
  have htype := itemType_eq_iff.mp hitem
  rw [carriesText, hitem]
  simp only [outputKinds, mem_cons, not_mem_nil, or_false] at hmem
  rcases hmem with rfl | rfl | rfl | rfl
  · -- a function's result goes out with its fields
    obtain ⟨sent, hsent, hresult⟩ : ∃ sent,
        grokItem crates profile item = some sent ∧
          PublicResult item sent text :=
      grokItem_functionOutput hdistinct htype houtput
    have hlowered : (lowerFunctionOutput crates sent).get "output" =
          some (.str text) ∧
        isInstructionItem (lowerFunctionOutput crates sent) =
          isInstructionItem item := hresult.lowered
    constructor
    · intro hsurvives
      have hinstruction : isInstructionItem item = false := by
        obtain ⟨other, hother, -⟩ := hsurvives.compatible
        rw [compatibleItem, hsent, Option.map_some, Option.filter_some,
          hlowered.2] at hother
        split at hother
        · rename_i hkept
          rwa [Bool.not_eq_true'] at hkept
        · cases hother
      have hsummary : isSummaryItem item = false := by
        rw [← Bool.not_eq_true]
        intro hsummary
        obtain ⟨content, hprojected⟩ : ∃ content, projectChatItems crates []
            [(sent, .synthetic)] false false =
              .ok [(.assistant content [] none, .synthetic)] :=
          hresult.projected_summary hsummary .synthetic
        obtain ⟨other, hother, hchat⟩ := hsurvives.chat
        obtain rfl := Option.some.inj (hsent.symm.trans hother)
        obtain ⟨callId, hfound⟩ := hchat [] [] [] .synthetic false false _
          hprojected
        simp at hfound
      rw [hinstruction, hsummary]
      rfl
    · intro hcarries
      rw [Bool.or_eq_true, Bool.and_eq_true, Bool.and_eq_true,
        Bool.not_eq_true', Bool.not_eq_true'] at hcarries
      obtain ⟨⟨-, hinstruction⟩, hsummary⟩ :=
        hcarries.resolve_left (by decide)
      refine ⟨⟨sent, hsent, hresult.output⟩, ?_, sent, hsent, ?_⟩
      · rw [compatibleItem, hsent, Option.map_some, Option.filter_some,
          hlowered.2, hinstruction]
        exact ⟨_, rfl, hlowered.1⟩
      · intro leading front rest provenance replayReasoning vision projection
          hprojection
        exact ⟨_, mem_projectChatItems (fun state =>
          projectItem_tool hresult.isToolOutput
            (hresult.not_checkpoint hsummary)
            (hresult.summary.trans hsummary) hresult.output) hprojection⟩
  · obtain ⟨callId, hsent⟩ : ∃ callId, grokItem crates profile item =
        some (publicOutput callId (.str (crates.toStr (.str text)))) :=
      grokItem_privateOutput htidy (Or.inl rfl) htype houtput
    exact iff_of_false (not_survives_of_quoted hquotes hsent) (by simp)
  · obtain ⟨callId, hsent⟩ : ∃ callId, grokItem crates profile item =
        some (publicOutput callId (.str text)) :=
      grokItem_shellOutput htidy htype houtput
    exact iff_of_true (publicOutput_survives hsent) (by simp)
  · obtain ⟨callId, hsent⟩ : ∃ callId, grokItem crates profile item =
        some (publicOutput callId (.str (crates.toStr (.str text)))) :=
      grokItem_privateOutput htidy (Or.inr rfl) htype houtput
    exact iff_of_false (not_survives_of_quoted hquotes hsent) (by simp)

end Kinds

namespace CustomResult

/-- JSON as it is written. -/
def crates : Crates :=
  ⟨fun _ => none,
    fun value => String.ofList (JsonText.text JsonText.FloatText.ofBits value),
    fun _ => []⟩

theorem quotesStrings : crates.QuotesStrings := by
  intro text
  change (String.ofList (JsonText.quote text)).toList = _
  rw [String.toList_ofList]

def result (kind : String) : Json :=
  .obj [("type", .str kind), ("call_id", .str "call_1"),
    ("output", .str "ok")]

theorem shell_survives :
    TextSurvives crates (.generic .responses) (result "local_shell_call_output")
        "ok" ↔
      carriesText (result "local_shell_call_output") = true :=
  textSurvives_iff quotesStrings (by decide)
    ⟨"local_shell_call_output", by decide, rfl⟩ rfl

/-- The result of a custom tool arrives in quotes. -/
theorem custom_arrives_quoted :
    ¬ TextSurvives crates (.generic .responses)
      (result "custom_tool_call_output") "ok" := by
  have hdistinct : (result "custom_tool_call_output").distinct = true := by
    decide
  obtain ⟨callId, hsent⟩ : ∃ callId, grokItem crates (.generic .responses)
      (result "custom_tool_call_output") =
        some (publicOutput callId (.str (crates.toStr (.str "ok")))) :=
    grokItem_privateOutput (Tidy.of_distinct hdistinct) (Or.inl rfl) rfl rfl
  exact not_survives_of_quoted quotesStrings hsent

end CustomResult

end Vellum.Proxy
