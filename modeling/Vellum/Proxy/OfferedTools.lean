/-
The functions a request offers.  Every declaration is translated to functions
of the wire; of the functions of one name the first is sent, where the order is
the request's own declarations, its free-form tools, those embedded in its
input, and delegation.
-/
import Vellum.Library.MaskedField
import Vellum.Proxy.PreparedChat

namespace Vellum.Proxy

open List Option Json

/-! Translated declarations are functions of the wire. -/

namespace ToolShape

/-- What a function of the wire is called. -/
def called (shape : ToolShape) (tool : Json) : Option String :=
  toolText (shape.function tool) "name"

/-- The schema of a function's arguments. -/
def schema (shape : ToolShape) (tool : Json) : Json :=
  ((shape.function tool).get "parameters").getD (typeSchema "object")

/-- A function of the wire: its name, its description and its schema. -/
def IsFunction (shape : ToolShape) (tool : Json) : Prop :=
  ∃ name description parameters, tool = shape.tool name description parameters

variable {shape : ToolShape} {tool : Json}

variable (name description parameters : Json)

@[simp]
theorem called_tool :
    shape.called (shape.tool name description parameters) = name.asStr := by
  cases shape <;> rfl

@[simp]
theorem schema_tool :
    shape.schema (shape.tool name description parameters) = parameters := by
  cases shape <;> rfl

theorem isFunction_tool :
    shape.IsFunction (shape.tool name description parameters) :=
  ⟨name, description, parameters, rfl⟩

theorem IsFunction.functionToolName (hfunction : shape.IsFunction tool) :
    functionToolName tool = (shape.called tool).filter (!isBlank ·) := by
  obtain ⟨name, description, parameters, rfl⟩ := hfunction
  rw [called_tool]
  cases shape <;> rfl

end ToolShape

variable {crates : Crates} {shape : ToolShape} (tool : Json)
  {profile : HarnessProfile} {fields : List (String × Json)}
  {webSearchEnabled : Bool} {tools kept : List Json} {canonical : Json}

theorem isFunction_declaredFunction {tool function : Json}
    (hdeclared : declaredFunction shape tool = some function) :
    shape.IsFunction function := by
  rw [declaredFunction, map_eq_some_iff] at hdeclared
  obtain ⟨parameters, -, rfl⟩ := hdeclared
  exact ToolShape.isFunction_tool _ _ _

theorem isFunction_customFunction (shape : ToolShape) (profile : HarnessProfile)
    (tool : Json) :
    ∀ function ∈ customFunction shape profile tool, shape.IsFunction function := by
  intro function hfunction
  unfold customFunction at hfunction
  extract_lets name at hfunction
  split at hfunction
  · split at hfunction
    · cases hfunction
    · obtain rfl := mem_singleton.mp hfunction
      exact ToolShape.isFunction_tool _ _ _
  · cases shape with
    | responses =>
      obtain rfl := mem_singleton.mp hfunction
      exact ToolShape.isFunction_tool _ _ _
    | chat =>
      obtain rfl := mem_singleton.mp hfunction
      exact ToolShape.isFunction_tool _ _ _

theorem isFunction_builtinFunction (shape : ToolShape) (kind : String) :
    ∀ function ∈ builtinFunction shape kind, shape.IsFunction function := by
  intro function hfunction
  rw [builtinFunction] at hfunction
  split at hfunction
  · obtain rfl := mem_singleton.mp hfunction
    exact ToolShape.isFunction_tool _ _ _
  · cases hfunction

theorem isFunction_flattenChild {child : Json}
    (hchild : ToolShape.responses.IsFunction child) :
    ToolShape.responses.IsFunction (flattenChild tool child) := by
  obtain ⟨name, description, parameters, rfl⟩ := hchild
  exact ⟨_, _, parameters, rfl⟩

theorem isFunction_flattenChatChild {child : Json}
    (hchild : ToolShape.chat.IsFunction child) :
    ToolShape.chat.IsFunction (flattenChatChild tool child) := by
  obtain ⟨name, description, parameters, rfl⟩ := hchild
  unfold flattenChatChild
  extract_lets named
  cases named with
  | none => exact ToolShape.isFunction_tool _ _ _
  | some namespaceName =>
    cases name <;> exact ⟨_, _, parameters, rfl⟩

/-! The recursion over namespaces. -/

theorem declaration_induction {motive : Json → Prop}
    (step : ∀ tool, (∀ child ∈ namespaceChildren tool, motive child) →
      motive tool) (tool : Json) : motive tool := by
  suffices hboth : motive tool ∧ ∀ item ∈ tool.asArr.getD [], motive item from
    hboth.1
  induction tool using Json.nestedInduction with
  | leaf value hitems hfields =>
    have hnone : namespaceChildren value = [] ∧ value.asArr = none := by
      cases value with
      | arr items => exact absurd rfl (hitems items)
      | obj fields => exact absurd rfl (hfields fields)
      | null | bool | num | str => exact ⟨rfl, rfl⟩
    rw [hnone.2]
    refine ⟨step value ?_, by rintro _ ⟨⟩⟩
    rw [hnone.1]
    intro child hchild
    cases hchild
  | arr items ih => exact ⟨step _ (by rintro _ ⟨⟩), fun item hitem => (ih item hitem).1⟩
  | obj fields ih =>
    refine ⟨step _ fun child hchild => ?_, by rintro _ ⟨⟩⟩
    have hfield {name : String} {value : Json}
        (hget : (obj fields).get name = some value) :
        ∀ item ∈ value.asArr.getD [], motive item := by
      obtain ⟨field, hfound, rfl⟩ := map_eq_some_iff.mp hget
      exact (ih field (mem_of_find?_eq_some hfound)).2
    rw [namespaceChildren] at hchild
    cases htools : (obj fields).get "tools" with
    | some value =>
      rw [htools, some_or] at hchild
      exact hfield htools child hchild
    | none =>
      rw [htools, none_or] at hchild
      cases hfunctions : (obj fields).get "functions" with
      | some value =>
        rw [hfunctions] at hchild
        exact hfield hfunctions child hchild
      | none =>
        rw [hfunctions] at hchild
        cases hchild

theorem grokItems_eq_flatMap (profile : HarnessProfile) (items : List Json) :
    grokItems profile items = items.flatMap (grokFunctionTools profile) := by
  induction items with
  | nil => rfl
  | cons item rest ih => rw [grokItems, ih, flatMap_cons]

theorem lookup_grokFields (profile : HarnessProfile) (name : String)
    (fields : List (String × Json)) :
    (grokFields profile fields).lookup name =
      ((obj fields).get name).map (grokList profile) := by
  induction fields with
  | nil => rfl
  | cons field rest ih =>
    obtain ⟨key, value⟩ := field
    rw [grokFields, lookup_cons, get_cons, ih]
    by_cases hkey : key = name
    · subst hkey
      simp
    · rw [if_neg hkey, beq_false_of_ne (Ne.symm hkey)]

theorem grokFunctionTools_namespace (profile : HarnessProfile) {tool : Json}
    (hkind : toolKind tool = some "namespace") :
    grokFunctionTools profile tool =
      ((namespaceChildren tool).flatMap (grokFunctionTools profile)).map
        (flattenChild tool) := by
  cases tool with
  | obj fields =>
    have hlist (value : Option Json) :
        ((value.map (grokList profile)).join).getD [] =
          ((value.bind asArr).getD []).flatMap
            (grokFunctionTools profile) := by
      cases value with
      | none => rfl
      | some value =>
        cases value with
        | arr items => exact grokItems_eq_flatMap profile items
        | null | bool | num | str | obj => rfl
    rw [grokFunctionTools]
    simp only [hkind, lookup_grokFields, ← map_or, hlist]
    rfl
  | null | bool | num | str | arr => cases hkind

theorem isFunction_grokFunctionTools (profile : HarnessProfile) (tool : Json) :
    ∀ function ∈ grokFunctionTools profile tool,
      ToolShape.responses.IsFunction function := by
  induction tool using declaration_induction with
  | step tool ih =>
    intro function hfunction
    by_cases hnamespace : toolKind tool = some "namespace"
    · rw [grokFunctionTools_namespace profile hnamespace] at hfunction
      obtain ⟨child, hchild, rfl⟩ := List.mem_map.mp hfunction
      obtain ⟨declared, hdeclared, hchild⟩ := mem_flatMap.mp hchild
      exact isFunction_flattenChild tool (ih declared hdeclared child hchild)
    · cases tool with
      | obj fields =>
        rw [grokFunctionTools] at hfunction
        simp only [] at hfunction
        split at hfunction
        · cases hfunction
        · rename_i kind hkind
          split_ifs at hfunction with hfun hname
          · exact isFunction_declaredFunction (mem_toList.mp hfunction)
          · exact absurd (hname ▸ hkind) hnamespace
          · exact isFunction_customFunction _ _ _ function hfunction
          · obtain rfl := mem_singleton.mp hfunction
            exact ToolShape.isFunction_tool _ _ _
          · exact isFunction_builtinFunction _ _ function hfunction
      | null | bool | num | str | arr => simp [grokFunctionTools] at hfunction

theorem isFunction_chatTools (profile : HarnessProfile) (tool : Json) :
    ∀ function ∈ chatTools profile tool, ToolShape.chat.IsFunction function := by
  intro function hfunction
  rw [chatTools] at hfunction
  split at hfunction
  · cases hfunction
  · split_ifs at hfunction
    · exact isFunction_declaredFunction (mem_toList.mp hfunction)
    · exact isFunction_customFunction _ _ _ function hfunction
    · obtain ⟨child, hchild, rfl⟩ := List.mem_map.mp hfunction
      obtain ⟨declared, -, hdeclared⟩ := mem_filterMap.mp hchild
      exact isFunction_flattenChatChild tool
        (isFunction_declaredFunction hdeclared)
    · obtain rfl := mem_singleton.mp hfunction
      exact ToolShape.isFunction_tool _ _ _
    · exact isFunction_builtinFunction _ _ function hfunction

theorem isFunction_translate (shape : ToolShape) (profile : HarnessProfile)
    (tool : Json) :
    ∀ function ∈ shape.translate profile tool, shape.IsFunction function := by
  cases shape with
  | responses => exact isFunction_grokFunctionTools profile tool
  | chat => exact isFunction_chatTools profile tool

/-! One function for each name. -/

/-- The first function with a name. -/
def ToolShape.firstCalled (shape : ToolShape) (name : String)
    (tools : List Json) : Option Json :=
  tools.find? fun tool => shape.called tool = some name

theorem firstCalled_isSome {name : String} :
    (shape.firstCalled name tools).isSome ↔
      ∃ tool ∈ tools, shape.called tool = some name := by
  simp [ToolShape.firstCalled, find?_isSome]

theorem firstCalled_append (shape : ToolShape) (name : String)
    (left right : List Json) :
    shape.firstCalled name (left ++ right) =
      (shape.firstCalled name left).or (shape.firstCalled name right) :=
  find?_append

theorem mem_of_firstCalled {name : String} {tool : Json}
    (hfirst : shape.firstCalled name tools = some tool) :
    tool ∈ tools ∧ shape.called tool = some name :=
  ⟨mem_of_find?_eq_some hfirst,
    by simpa using find?_some hfirst⟩

/-- The functions all have names that are not blank. -/
def ToolShape.AllNamed (shape : ToolShape) (tools : List Json) : Prop :=
  ∀ tool ∈ tools, ∃ name, shape.called tool = some name ∧ isBlank name = false

/-- Each function is the only one of its name. -/
def ToolShape.Unique (shape : ToolShape) (tools : List Json) : Prop :=
  ∀ tool ∈ tools, ∀ name, shape.called tool = some name →
    shape.firstCalled name tools = some tool

theorem unique_append {left right : List Json} (hleft : shape.Unique left)
    (hright : shape.Unique right)
    (hapart : ∀ tool ∈ right, ∀ name, shape.called tool = some name →
      shape.firstCalled name left = none) : shape.Unique (left ++ right) := by
  intro tool htool name hname
  rw [firstCalled_append]
  rcases mem_append.mp htool with htool | htool
  · rw [hleft tool htool name hname, some_or]
  · rw [hapart tool htool name hname, none_or,
      hright tool htool name hname]

/-- What a pass of the deduplication keeps of functions: the first of each name
that was not seen. -/
structure Deduplicated (shape : ToolShape) (seen : List (String × Json))
    (tools kept : List Json) : Prop where
  named : shape.AllNamed tools
  sublist : kept.Sublist tools
  unique : shape.Unique kept
  first : ∀ name, shape.firstCalled name kept =
    if (seen.lookup name).isSome then none else shape.firstCalled name tools

theorem deduplicateFrom_spec {seen : List (String × Json)}
    (hkept : deduplicateFrom crates shape seen tools = .ok kept) :
    Deduplicated shape seen tools kept := by
  induction tools generalizing seen kept with
  | nil =>
    obtain rfl := Except.ok.inj hkept
    exact ⟨by rintro _ ⟨⟩, .slnil, by rintro _ ⟨⟩, fun name => (ite_self none).symm⟩
  | cons tool rest ih =>
    rw [deduplicateFrom] at hkept
    simp only [] at hkept
    split at hkept
    · cases hkept
    · rename_i called hcalled
      obtain ⟨hcalled, hblank⟩ := filter_eq_some_iff.mp hcalled
      have hnamed : shape.called tool = some called := hcalled
      rw [Bool.not_eq_true'] at hblank
      split at hkept
      · rename_i previous hprevious
        split at hkept
        · have hrest := ih hkept
          refine ⟨forall_mem_cons.mpr ⟨⟨called, hnamed, hblank⟩,
            hrest.named⟩, hrest.sublist.cons tool, hrest.unique, fun name => ?_⟩
          rw [hrest.first]
          by_cases hname : called = name
          · subst hname
            rw [hprevious]
            rfl
          · rw [ToolShape.firstCalled, ToolShape.firstCalled, find?_cons,
              hnamed]
            simp [hname]
        · cases hkept
      · rename_i hfresh
        obtain ⟨others, hothers, rfl⟩ := exists_of_map_eq_ok hkept
        have hrest := ih hothers
        have hfirst (name : String) : shape.firstCalled name (tool :: others) =
            if (seen.lookup name).isSome then none
            else shape.firstCalled name (tool :: rest) := by
          have hothers := hrest.first name
          rw [lookup_cons] at hothers
          rw [ToolShape.firstCalled, ToolShape.firstCalled] at hothers ⊢
          rw [find?_cons, find?_cons, hothers, hnamed]
          by_cases hname : called = name
          · subst hname
            simp [hfresh]
          · have hother : (name == called) = false :=
              beq_false_of_ne (Ne.symm hname)
            rw [hother]
            simp [hname]
        refine ⟨forall_mem_cons.mpr ⟨⟨called, hnamed, hblank⟩,
          hrest.named⟩, hrest.sublist.cons_cons tool, ?_, hfirst⟩
        refine unique_append (?_ : shape.Unique [tool]) hrest.unique ?_
        · intro single hsingle name hname
          obtain rfl := mem_singleton.mp hsingle
          simp [ToolShape.firstCalled, hname]
        · intro other hother name hname
          have hsome := firstCalled_isSome.mpr ⟨other, hother, hname⟩
          rw [hrest.first, lookup_cons] at hsome
          by_cases heq : called = name
          · subst heq
            simp at hsome
          · simp [ToolShape.firstCalled, hnamed, heq]

/-- What is kept has pairwise distinct names. -/
theorem nodup_deduplicateFrom {seen : List (String × Json)}
    (hkept : deduplicateFrom crates shape seen tools = .ok kept) :
    (kept.filterMap shape.called).Nodup := by
  induction tools generalizing seen kept with
  | nil =>
    obtain rfl := Except.ok.inj hkept
    exact nodup_nil
  | cons tool rest ih =>
    rw [deduplicateFrom] at hkept
    simp only [] at hkept
    split at hkept
    · cases hkept
    · rename_i called hcalled
      have hnamed : shape.called tool = some called :=
        (filter_eq_some_iff.mp hcalled).1
      split at hkept
      · split at hkept
        · exact ih hkept
        · cases hkept
      · obtain ⟨others, hothers, rfl⟩ := exists_of_map_eq_ok hkept
        rw [filterMap_cons_some hnamed, nodup_cons]
        refine ⟨fun hthere => ?_, ih hothers⟩
        -- the name has been seen by then
        have hsome := firstCalled_isSome.mpr (mem_filterMap.mp hthere)
        rw [(deduplicateFrom_spec hothers).first, lookup_cons_self]
          at hsome
        cases hsome

/-- Functions that are deduplicated are named; the first of each name is
kept. -/
theorem deduplicate_spec
    (hkept : deduplicateFunctionTools crates shape tools = .ok kept) :
    Deduplicated shape [] tools kept :=
  deduplicateFrom_spec hkept

/-! The functions a request offers. -/

/-- The functions of a request with those that its input embeds, in the order
in which the first of a name is sent. -/
def declaredFunctions (shape : ToolShape) (profile : HarnessProfile)
    (raw embedded : List Json) : List Json :=
  let own := expandedTopLevel shape profile raw
  own ++ (embedded.flatMap (shape.translate profile)).filter
    (unnamedIn (own.filterMap functionToolName))

section Merge

variable {crates : Crates} {shape : ToolShape} {profile : HarnessProfile}
  {raw embedded tools : List Json}

theorem isFunction_expandedTopLevel :
    ∀ tool ∈ expandedTopLevel shape profile raw, shape.IsFunction tool := by
  intro tool htool
  rw [expandedTopLevel, mem_append, mem_filter, mem_flatMap,
    mem_flatMap] at htool
  rcases htool with ⟨⟨declared, -, htool⟩, -⟩ | ⟨declared, -, htool⟩
  · exact isFunction_translate shape profile declared tool htool
  · exact isFunction_translate shape profile declared tool htool

theorem isFunction_declaredFunctions :
    ∀ tool ∈ declaredFunctions shape profile raw embedded,
      shape.IsFunction tool := by
  intro tool htool
  rw [declaredFunctions, mem_append, mem_filter, mem_flatMap]
    at htool
  rcases htool with htool | ⟨⟨declared, -, htool⟩, -⟩
  · exact isFunction_expandedTopLevel tool htool
  · exact isFunction_translate shape profile declared tool htool

theorem isFunction_delegationTools :
    ∀ tool ∈ delegationTools shape profile, shape.IsFunction tool := by
  rw [delegationTools]
  split
  · exact isFunction_translate shape profile _
  · rintro _ ⟨⟩

theorem mem_filterMap_functionToolName {functions : List Json} {name : String}
    (hfunctions : ∀ tool ∈ functions, shape.IsFunction tool) :
    name ∈ functions.filterMap functionToolName ↔
      (shape.firstCalled name functions).isSome ∧ isBlank name = false := by
  rw [mem_filterMap, firstCalled_isSome]
  constructor
  · rintro ⟨tool, htool, hname⟩
    rw [(hfunctions tool htool).functionToolName,
      filter_eq_some_iff, Bool.not_eq_true'] at hname
    exact ⟨⟨tool, htool, hname.1⟩, hname.2⟩
  · rintro ⟨⟨tool, htool, hname⟩, hblank⟩
    refine ⟨tool, htool, ?_⟩
    rw [(hfunctions tool htool).functionToolName, hname]
    simp [hblank]

/-- The names that are left free are the same before and after the functions
are deduplicated. -/
theorem unnamedIn_deduplicated {own : List Json}
    (hown : Deduplicated shape [] (expandedTopLevel shape profile raw) own) :
    unnamedIn (own.filterMap functionToolName) =
      unnamedIn ((expandedTopLevel shape profile raw).filterMap
        functionToolName) := by
  have hownFunctions : ∀ tool ∈ own, shape.IsFunction tool := fun tool htool =>
    isFunction_expandedTopLevel tool (hown.sublist.subset htool)
  have hexpanded : ∀ tool ∈ expandedTopLevel shape profile raw,
      shape.IsFunction tool := isFunction_expandedTopLevel
  funext tool
  rw [unnamedIn, unnamedIn]
  congr 1
  funext name
  rw [decide_eq_decide, mem_filterMap_functionToolName hownFunctions,
    mem_filterMap_functionToolName hexpanded, hown.first]
  rfl

/-- No function that the input embeds has the name of an own one. -/
theorem embedded_apart {own extra : List Json}
    (hown : Deduplicated shape [] (expandedTopLevel shape profile raw) own)
    (hextra : Deduplicated shape []
      ((embedded.flatMap (shape.translate profile)).filter
        (unnamedIn (own.filterMap functionToolName))) extra) :
    ∀ tool ∈ extra, ∀ name, shape.called tool = some name →
      shape.firstCalled name own = none := by
  intro tool htool name hname
  have hmem := hextra.sublist.subset htool
  obtain ⟨called, hcalled, hblank⟩ := hextra.named tool hmem
  obtain rfl : called = name := some.inj (hcalled.symm.trans hname)
  obtain ⟨hmem, hfree⟩ := mem_filter.mp hmem
  obtain ⟨declared, -, htranslated⟩ := mem_flatMap.mp hmem
  have hfunction := isFunction_translate shape profile declared tool htranslated
  rw [unnamedIn, hfunction.functionToolName, hname] at hfree
  rw [← not_isSome_iff_eq_none]
  intro htaken
  have hownFunctions : ∀ tool ∈ own, shape.IsFunction tool := fun tool htool =>
    isFunction_expandedTopLevel tool (hown.sublist.subset htool)
  have htaken := (mem_filterMap_functionToolName hownFunctions).mpr
    ⟨htaken, hblank⟩
  simp only [filter_some, hblank, Bool.not_false, if_true,
    all_some, decide_eq_true_eq] at hfree
  exact hfree htaken

/-- What is merged is named, and the first function of each name is sent. -/
theorem mergedTools_spec
    (hmerged : mergedTools crates shape profile raw embedded = .ok tools) :
    shape.AllNamed (declaredFunctions shape profile raw embedded) ∧
      (∀ tool ∈ tools, tool ∈ declaredFunctions shape profile raw embedded) ∧
      shape.Unique tools ∧
      ∀ name, shape.firstCalled name tools =
        shape.firstCalled name (declaredFunctions shape profile raw embedded) := by
  rw [mergedTools] at hmerged
  obtain ⟨own, hown, hmerged⟩ := exists_of_bind_eq_ok hmerged
  obtain ⟨extra, hextra, hmerged⟩ := exists_of_bind_eq_ok hmerged
  obtain rfl := Except.ok.inj hmerged
  replace hown := deduplicate_spec hown
  replace hextra := deduplicate_spec hextra
  have hapart := embedded_apart hown hextra
  rw [unnamedIn_deduplicated hown] at hextra
  refine ⟨?_, ?_, unique_append hown.unique hextra.unique hapart,
    fun name => ?_⟩
  · exact forall_mem_append.mpr ⟨hown.named, hextra.named⟩
  · intro tool htool
    rcases mem_append.mp htool with htool | htool
    · exact mem_append_left _ (hown.sublist.subset htool)
    · exact mem_append_right _ (hextra.sublist.subset htool)
  · rw [declaredFunctions, firstCalled_append, firstCalled_append, hown.first,
      hextra.first]
    rfl

theorem nodup_mergedTools
    (hmerged : mergedTools crates shape profile raw embedded = .ok tools) :
    (tools.filterMap shape.called).Nodup := by
  rw [mergedTools] at hmerged
  obtain ⟨own, hown, hmerged⟩ := exists_of_bind_eq_ok hmerged
  obtain ⟨extra, hextra, hmerged⟩ := exists_of_bind_eq_ok hmerged
  obtain rfl := Except.ok.inj hmerged
  have hapart := embedded_apart (deduplicate_spec hown)
    (deduplicate_spec hextra)
  rw [filterMap_append]
  refine (nodup_deduplicateFrom hown).append (nodup_deduplicateFrom hextra) ?_
  intro name hhere hthere
  obtain ⟨tool, htool, hname⟩ := mem_filterMap.mp hthere
  have hsome := firstCalled_isSome.mpr (mem_filterMap.mp hhere)
  rw [hapart tool htool name hname] at hsome
  cases hsome

end Merge

/-! Declarations embedded in the input. -/

/-- The tools an input item declares. -/
def declaredIn (item : Json) : List Json :=
  match item with
  | .obj fields =>
    let visible := Json.obj
      (stripVellumCheckpointMetadata (stripInternalFields fields))
    if itemType visible = some "additional_tools" then requestTools visible
    else []
  | _ => []

/-- The tools the input of a request declares. -/
def embeddedDeclarations (body : Json) : List Json :=
  (((body.get "input").bind asArr).getD []).flatMap declaredIn

/-- What comes of an item that is no declaration. -/
def DeclaresNothing (normalized : Option Json × List Json)
    (result : Except String (Option Json × List Json)) : Prop :=
  result = .ok normalized → normalized.2 = []

section DeclaresNothing

variable {normalized : Option Json × List Json}

theorem declaresNothing_ok (item : Option Json) :
    DeclaresNothing normalized (.ok (item, [])) :=
  fun heq => (congrArg Prod.snd (Except.ok.inj heq)).symm

theorem declaresNothing_error (error : String) :
    DeclaresNothing normalized (.error error) := by rintro ⟨⟩

theorem declaresNothing_ite {condition : Prop} [Decidable condition]
    {left right : Except String (Option Json × List Json)}
    (hleft : DeclaresNothing normalized left)
    (hright : DeclaresNothing normalized right) :
    DeclaresNothing normalized (if condition then left else right) := by
  split
  · exact hleft
  · exact hright

end DeclaresNothing

theorem snd_normalizeGrokInputItem {item : Json}
    {normalized : Option Json × List Json}
    (hnormalized : normalizeGrokInputItem crates profile item = .ok normalized) :
    normalized.2 = declaredIn item := by
  cases item with
  | obj fields =>
    rw [normalizeGrokInputItem] at hnormalized
    simp only [] at hnormalized
    rw [declaredIn]
    generalize Json.obj (stripVellumCheckpointMetadata
      (stripInternalFields fields)) = visible at hnormalized ⊢
    by_cases hkind : itemType visible = some "additional_tools"
    · rw [hkind, getD_some, if_pos rfl] at hnormalized
      rw [if_pos hkind, ← Except.ok.inj hnormalized]
    · have hother : ¬ (itemType visible).getD "message" = "additional_tools" := by
        cases hvisible : itemType visible with
        | none => simp
        | some kind => exact fun heq => hkind (hvisible.trans (congrArg some heq))
      rw [if_neg hother] at hnormalized
      rw [if_neg hkind]
      revert hnormalized
      rw [← DeclaresNothing]
      repeat' first
        | exact declaresNothing_ok _
        | exact declaresNothing_error _
        | refine declaresNothing_ite ?_ ?_
  | null | bool | num | str | arr =>
    obtain rfl := Except.ok.inj hnormalized
    rfl

theorem snd_normalizeInputItems {τ : Type} {items : List (Json × τ)}
    {normalized : List (Json × τ) × List Json}
    (hnormalized : normalizeInputItems crates profile items = .ok normalized) :
    normalized.2 = (items.map Prod.fst).flatMap declaredIn := by
  induction items generalizing normalized with
  | nil =>
    obtain rfl := Except.ok.inj hnormalized
    rfl
  | cons entry rest ih =>
    obtain ⟨item, tag⟩ := entry
    rw [normalizeInputItems] at hnormalized
    obtain ⟨⟨head, tools⟩, hhead, hnormalized⟩ :=
      exists_of_bind_eq_ok hnormalized
    obtain ⟨⟨others, embedded⟩, hrest, hnormalized⟩ :=
      exists_of_bind_eq_ok hnormalized
    obtain rfl := Except.ok.inj hnormalized
    rw [map_cons, flatMap_cons, ← ih hrest,
      ← snd_normalizeGrokInputItem hhead]

theorem embedded_chatInputItems {replay : ReplayContext} {body : Json}
    {items : List (Json × ChatMessageProvenance)} {embedded : List Json}
    (hitems : chatInputItems crates profile replay body = .ok (items, embedded)) :
    embedded = embeddedDeclarations body := by
  rw [chatInputItems] at hitems
  simp only [] at hitems
  split at hitems
  · rename_i input hinput
    have hembedded := snd_normalizeInputItems hitems
    rw [embeddedDeclarations, hinput, bind_some, asArr, getD_some]
    rw [List.map_map] at hembedded
    simpa [Function.comp_def] using hembedded
  · rename_i hinput
    obtain ⟨-, rfl⟩ := Prod.mk.inj (Except.ok.inj hitems)
    rw [embeddedDeclarations]
    cases hget : body.get "input" with
    | none => rfl
    | some value =>
      cases value with
      | arr items => exact absurd hget (hinput items)
      | null | bool | num | str | obj => rfl

/-! What the Responses wire is sent. -/

/-- The fields that hold the declarations of a request. -/
def declarationKeys : List String := ["tools", "input"]

theorem requestTools_congr {before after : Json}
    (hget : after.get "tools" = before.get "tools") :
    requestTools after = requestTools before := by
  rw [requestTools, requestTools, hget]

theorem embeddedDeclarations_congr {before after : Json}
    (hleaves : Leaves declarationKeys before after) :
    embeddedDeclarations after = embeddedDeclarations before := by
  rw [embeddedDeclarations, embeddedDeclarations,
    hleaves.get "input" (by decide)]

theorem leaves_grokRequestFields {keys : List String}
    (hknown : ∀ key ∈ keys, key ∈ grokRequestFields)
    (htidy : (obj fields).Tidy) :
    Leaves keys (.obj fields)
      (.obj (fields.filter fun field => field.1 ∈ grokRequestFields)) where
  tidy := tidy_obj_iff.mpr
    ((tidy_obj_iff.mp htidy).sublist (filter_sublist.map _))
  get key hkey := by
    rw [Json.get, Json.get, find?_filter]
    congr 2
    funext field
    by_cases hname : field.1 = key
    · simp [hname, hknown key hkey]
    · simp [hname]

theorem leaves_omitNoneEffort {keys : List String} (hkeys : "reasoning" ∉ keys)
    (htidy : (obj fields).Tidy) :
    Leaves keys (.obj fields) (.obj (omitNoneEffort fields)) := by
  rw [omitNoneEffort]
  split
  · extract_lets kept
    generalize kept = kept
    split
    · exact .removeField htidy hkeys
    · exact .insertField htidy hkeys _
  · exact .refl htidy

theorem publicInput_spec {public' : List (String × Json)} {embedded : List Json}
    (htidy : (obj fields).Tidy)
    (hpublic : publicInput crates profile fields = .ok (public', embedded)) :
    Leaves ["tools", "tool_choice"] (.obj fields) (.obj public') ∧
      embedded = embeddedDeclarations (.obj fields) := by
  rw [publicInput] at hpublic
  split at hpublic
  · rename_i items hget
    obtain ⟨⟨normalized, tools⟩, hitems, hpublic⟩ := exists_of_map_eq_ok hpublic
    obtain ⟨rfl, rfl⟩ := Prod.mk.inj hpublic
    have hembedded := snd_normalizeInputItems hitems
    refine ⟨.insertField htidy (by decide) _, ?_⟩
    rw [embeddedDeclarations, hget, bind_some, asArr, getD_some]
    simpa [Function.comp_def] using hembedded
  · rename_i hinputs
    obtain ⟨rfl, rfl⟩ := Prod.mk.inj (Except.ok.inj hpublic)
    refine ⟨.refl htidy, ?_⟩
    rw [embeddedDeclarations]
    cases hget : (obj fields).get "input" with
    | none => rfl
    | some value =>
      cases value with
      | arr items => exact absurd hget (hinputs items)
      | null | bool | num | str | obj => rfl

/-- The request without its tools, and the functions they stand for. -/
theorem normalizeResponsesInputAndTools_spec {rest : List (String × Json)}
    (htidy : (obj fields).Tidy)
    (hnormalized : normalizeResponsesInputAndTools crates profile fields =
      .ok (rest, tools)) :
    (obj rest).Tidy ∧ (obj rest).get "tools" = none ∧
      ∃ merged, mergedTools crates .responses profile
          (requestTools (.obj fields)) (embeddedDeclarations (.obj fields)) =
            .ok merged ∧
        tools = merged ++ delegationTools .responses profile := by
  rw [normalizeResponsesInputAndTools] at hnormalized
  obtain ⟨⟨public', embedded⟩, hpublic, hnormalized⟩ :=
    exists_of_bind_eq_ok hnormalized
  obtain ⟨merged, hmerged, hnormalized⟩ := exists_of_bind_eq_ok hnormalized
  obtain ⟨rfl, rfl⟩ := Prod.mk.inj (Except.ok.inj hnormalized)
  obtain ⟨hleaves, rfl⟩ := publicInput_spec htidy hpublic
  refine ⟨tidy_dropField hleaves.tidy "tools", ?_, merged, ?_, rfl⟩
  · exact get_eq_none_iff.mpr
      (notMem_removeField (tidy_obj_iff.mp hleaves.tidy) "tools")
  · rw [← hmerged, requestTools, requestTools, hleaves.get "tools" (by decide)]

theorem requestTools_withFunctionTools (htidy : (obj fields).Tidy)
    (hfree : (obj fields).get "tools" = none) (tools : List Json) :
    requestTools (.obj (withFunctionTools tools fields)) = tools ∧
      (obj (withFunctionTools tools fields)).Tidy := by
  rw [withFunctionTools]
  split
  · rename_i hempty
    have hfirst : Leaves declarationKeys (.obj fields)
        (.obj (Json.removeField "tool_choice" fields)) :=
      .removeField htidy (by decide)
    have hboth : Leaves declarationKeys (.obj fields)
        (.obj (Json.removeField "parallel_tool_calls"
          (Json.removeField "tool_choice" fields))) :=
      hfirst.trans (.removeField hfirst.tidy (by decide))
    rw [List.isEmpty_iff] at hempty
    refine ⟨(requestTools_congr (hboth.get "tools" (by decide))).trans ?_,
      hboth.tidy⟩
    rw [requestTools, hfree, hempty]
    rfl
  · have hequipped := tidy_putField htidy "tools" (.arr tools)
    have hget : (obj (Json.insertField "tools" (.arr tools) fields)).get "tools" =
        some (.arr tools) := by
      rw [get_insertField, if_pos rfl]
    simp only []
    split
    · refine ⟨?_, tidy_putField hequipped "tool_choice" _⟩
      rw [requestTools, get_insertField, if_neg (by decide), hget]
      rfl
    · refine ⟨?_, hequipped⟩
      rw [requestTools, hget]
      rfl

theorem leaves_lowerFunctionOutputs (crates : Crates)
    (htidy : (obj fields).Tidy) :
    Leaves ["tools", "tool_choice"] (.obj fields)
      (.obj (lowerFunctionOutputs crates fields)) := by
  rw [lowerFunctionOutputs]
  split
  · exact .insertField htidy (by decide) _
  · exact .refl htidy

theorem leaves_foldCompatibleResponsesInstructions (crates : Crates)
    (htidy : (obj fields).Tidy) :
    Leaves ["tools", "tool_choice"] (.obj fields)
      (.obj (foldCompatibleResponsesInstructions crates fields)) := by
  rw [foldCompatibleResponsesInstructions]
  split
  · extract_lets kept folded own
    have hkept : Leaves ["tools", "tool_choice"] (.obj fields) (.obj kept) :=
      .insertField htidy (by decide) _
    split
    · exact hkept
    · exact hkept.trans (.insertField hkept.tidy (by decide) _)
  · exact .refl htidy

/-- What is done around the input and the functions of a Responses request
leaves them and the choice alone. -/
theorem normalizedRequest_cases {route : ProfileAdapterRoute}
    {normalized : Json} (htidy : canonical.Tidy)
    (hkind : route.providerKind ≠ .official) (hwire : route.wire = .responses)
    (hnormalized : normalizedRequest crates route profile webSearchEnabled
      canonical = .ok normalized) :
    ∃ fields rest tools sent,
      Leaves (declarationKeys ++ ["tool_choice"]) canonical (.obj fields) ∧
      normalizeResponsesInputAndTools crates profile fields =
        .ok (rest, tools) ∧
      Leaves ["tools", "tool_choice"] (.obj rest) (.obj sent) ∧
      Leaves ["tools", "tool_choice"]
        (.obj (withFunctionTools (withoutIdleSearch webSearchEnabled tools)
          sent)) normalized := by
  rw [normalizedRequest] at hnormalized
  split at hnormalized
  · cases canonical with
    | obj fields =>
      rw [normalizeGrokResponsesRequest] at hnormalized
      obtain ⟨⟨rest, tools⟩, hrest, hnormalized⟩ :=
        exists_of_bind_eq_ok hnormalized
      obtain rfl := Except.ok.inj hnormalized
      have hknown : Leaves (declarationKeys ++ ["tool_choice"]) _ _ :=
        leaves_grokRequestFields (by decide) htidy
      have hbefore := hknown.trans
        (leaves_omitNoneEffort (by decide) hknown.tidy)
      obtain ⟨hrestTidy, hfree, -⟩ :=
        normalizeResponsesInputAndTools_spec hbefore.tidy hrest
      exact ⟨_, rest, tools, rest, hbefore, hrest, .refl hrestTidy,
        .refl (requestTools_withFunctionTools hrestTidy hfree _).2⟩
    | null | bool | num | str | arr => cases hnormalized
  · rename_i hgrok
    have hcompatible : route.providerKind = .openAiCompatible := by
      cases hprovider : route.providerKind with
      | official => exact absurd hprovider hkind
      | grokCli => exact absurd hprovider hgrok
      | openAiCompatible => rfl
    rw [hcompatible, hwire, if_pos (by decide)] at hnormalized
    cases canonical with
    | obj fields =>
      rw [normalizeCompatibleResponsesRequest] at hnormalized
      obtain ⟨⟨rest, tools⟩, hrest, hnormalized⟩ :=
        exists_of_bind_eq_ok hnormalized
      obtain rfl := Except.ok.inj hnormalized
      have hfirst : Leaves (declarationKeys ++ ["tool_choice"]) (.obj fields)
          (.obj (Json.removeField "previous_response_id" fields)) :=
        .removeField htidy (by decide)
      have hbefore := hfirst.trans
        (.removeField hfirst.tidy (by decide : "client_metadata" ∉ _))
      obtain ⟨hrestTidy, hfree, -⟩ :=
        normalizeResponsesInputAndTools_spec hbefore.tidy hrest
      have hlowered := leaves_lowerFunctionOutputs crates hrestTidy
      rw [← hlowered.get "tools" (by decide)] at hfree
      exact ⟨_, rest, tools, _, hbefore, hrest, hlowered,
        leaves_foldCompatibleResponsesInstructions crates
          (requestTools_withFunctionTools hlowered.tidy hfree _).2⟩
    | null | bool | num | str | arr => cases hnormalized

/-- On the Responses wire a request is sent with the functions it was merged
to. -/
theorem requestTools_normalizedRequest {route : ProfileAdapterRoute}
    {normalized : Json} (htidy : canonical.Tidy)
    (hkind : route.providerKind ≠ .official) (hwire : route.wire = .responses)
    (hnormalized : normalizedRequest crates route profile webSearchEnabled
      canonical = .ok normalized) :
    ∃ merged, mergedTools crates .responses profile (requestTools canonical)
        (embeddedDeclarations canonical) = .ok merged ∧
      requestTools normalized = withoutIdleSearch webSearchEnabled
        (merged ++ delegationTools .responses profile) ∧
      normalized.Tidy := by
  obtain ⟨fields, rest, tools, sent, hbefore, hrest, hsent, hafter⟩ :=
    normalizedRequest_cases htidy hkind hwire hnormalized
  obtain ⟨-, hfree, merged, hmerged, rfl⟩ :=
    normalizeResponsesInputAndTools_spec hbefore.tidy hrest
  have hdeclared : Leaves declarationKeys canonical (.obj fields) :=
    ⟨hbefore.tidy, fun key hkey =>
      hbefore.get key (mem_append_left _ hkey)⟩
  rw [requestTools_congr (hbefore.get "tools" (by decide)),
    embeddedDeclarations_congr hdeclared] at hmerged
  rw [← hsent.get "tools" (by decide)] at hfree
  refine ⟨merged, hmerged, ?_, hafter.tidy⟩
  rw [requestTools_congr (hafter.get "tools" (by decide)),
    (requestTools_withFunctionTools hsent.tidy hfree _).1]

/-- What a body calls its functions. -/
def sentNames (shape : ToolShape) (body : Json) : List String :=
  (requestTools body).filterMap shape.called

/-- A route that is translated: its profile is, and a Grok route is on the
Responses wire. -/
structure TranslatedRoute (route : ProfileAdapterRoute)
    (profile : HarnessProfile) : Prop where
  translated : profile.kind.isTranslated = true
  provider : route.providerKind ≠ .official
  grok : route.providerKind = .grokCli → route.wire = .responses

/-- The functions of a request in the order in which the first of a name is
sent; the wire of a Grok route or a compatible one drops an idle web search. -/
def offeredFunctions (shape : ToolShape) (profile : HarnessProfile)
    (webSearchEnabled : Bool) (body : Json) : List Json :=
  let functions := declaredFunctions shape profile (requestTools body)
    (embeddedDeclarations body) ++ delegationTools shape profile
  match shape with
  | .responses => withoutIdleSearch webSearchEnabled functions
  | .chat => functions

theorem mem_withoutIdleSearch {tool : Json} :
    tool ∈ withoutIdleSearch webSearchEnabled tools ↔
      tool ∈ tools ∧ (webSearchEnabled = true ∨
        functionToolName tool ≠ some "web_search") := by
  cases webSearchEnabled <;> simp [withoutIdleSearch]

theorem isFunction_offeredFunctions {body : Json} :
    ∀ tool ∈ offeredFunctions shape profile webSearchEnabled body,
      shape.IsFunction tool := by
  have hall : ∀ tool ∈ declaredFunctions shape profile (requestTools body)
      (embeddedDeclarations body) ++ delegationTools shape profile,
      shape.IsFunction tool :=
    forall_mem_append.mpr
      ⟨isFunction_declaredFunctions, isFunction_delegationTools⟩
  intro tool htool
  unfold offeredFunctions at htool
  cases shape with
  | chat => exact hall tool htool
  | responses => exact hall tool (mem_withoutIdleSearch.mp htool).1

theorem firstCalled_withoutIdleSearch
    (hfunctions : ∀ tool ∈ tools, ToolShape.responses.IsFunction tool)
    (name : String) :
    ToolShape.responses.firstCalled name
        (withoutIdleSearch webSearchEnabled tools) =
      if webSearchEnabled = false ∧ name = "web_search" then none
      else ToolShape.responses.firstCalled name tools := by
  cases webSearchEnabled with
  | true => rfl
  | false =>
    have hidle (tool : Json) (hfunction : ToolShape.responses.IsFunction tool) :
        functionToolName tool = some "web_search" ↔
          ToolShape.responses.called tool = some "web_search" := by
      rw [hfunction.functionToolName, filter_eq_some_iff]
      exact and_iff_left (by decide)
    rw [withoutIdleSearch, if_neg Bool.false_ne_true]
    induction tools with
    | nil => exact (ite_self none).symm
    | cons tool rest ih =>
      rw [forall_mem_cons] at hfunctions
      replace ih := ih hfunctions.2
      rw [ToolShape.firstCalled] at ih ⊢
      rw [ToolShape.firstCalled] at ih ⊢
      by_cases hsearch : ToolShape.responses.called tool = some "web_search"
      · have hnamed := (hidle tool hfunctions.1).mpr hsearch
        rw [filter_cons_of_neg (by simp [hnamed]), ih, find?_cons,
          hsearch]
        by_cases hname : name = "web_search"
        · simp [hname]
        · simp [hname, Ne.symm hname]
      · have hnamed := mt (hidle tool hfunctions.1).mp hsearch
        rw [filter_cons_of_pos (by simp [hnamed]), find?_cons, ih,
          find?_cons]
        by_cases hcalled : ToolShape.responses.called tool = some name
        · have hname : name ≠ "web_search" := fun heq =>
            hsearch (heq ▸ hcalled)
          simp [hcalled, hname]
        · simp [hcalled]

/-- The name of the one function of the delegation runtime. -/
def delegationName : String := flattenNamespaceName "multi_agent" "spawn"

theorem called_delegationTools (shape : ToolShape) (profile : HarnessProfile) :
    (delegationTools shape profile).map shape.called =
      if profile.multiAgentPolicy = .vellumDelegated then [some delegationName]
      else [] := by
  rw [delegationTools]
  split
  · cases shape <;> rfl
  · rfl

/-- What a wire is sent of the functions that are offered: of each name the
first, and the `late` ones. -/
structure SentFunctions (shape : ToolShape) (offered late sent : List Json) :
    Prop where
  mem : ∀ tool ∈ sent, tool ∈ offered
  named : shape.AllNamed offered
  first : ∀ name, shape.firstCalled name sent = shape.firstCalled name offered
  unique : ∀ tool ∈ sent, ∀ name, shape.called tool = some name →
    shape.firstCalled name sent = some tool ∨ tool ∈ late
  late : ∀ tool ∈ late, tool ∈ sent

theorem named_delegationTools :
    ∀ tool ∈ delegationTools shape profile,
      shape.called tool = some delegationName := by
  intro tool htool
  have hmem : shape.called tool ∈ (delegationTools shape profile).map
      shape.called := List.mem_map_of_mem htool
  rw [called_delegationTools] at hmem
  split at hmem
  · exact mem_singleton.mp hmem
  · cases hmem

theorem sentFunctions_responses {route : ProfileAdapterRoute}
    {normalized : Json} (htidy : canonical.Tidy)
    (hkind : route.providerKind ≠ .official) (hwire : route.wire = .responses)
    (hnormalized : normalizedRequest crates route profile webSearchEnabled
      canonical = .ok normalized) :
    SentFunctions .responses
      (offeredFunctions .responses profile webSearchEnabled canonical)
      (delegationTools .responses profile) (requestTools normalized) := by
  obtain ⟨merged, hmerged, htools, -⟩ :=
    requestTools_normalizedRequest htidy hkind hwire hnormalized
  obtain ⟨hnamed, hmem, hunique, hfirst⟩ := mergedTools_spec hmerged
  have hdeclared : ∀ tool ∈ declaredFunctions .responses profile
      (requestTools canonical) (embeddedDeclarations canonical),
      ToolShape.responses.IsFunction tool := isFunction_declaredFunctions
  have hlate : ∀ tool ∈ delegationTools .responses profile,
      ToolShape.responses.IsFunction tool := isFunction_delegationTools
  have hsent : ∀ tool ∈ merged ++ delegationTools .responses profile,
      ToolShape.responses.IsFunction tool :=
    forall_mem_append.mpr
      ⟨fun tool htool => hdeclared tool (hmem tool htool), hlate⟩
  have hoffered := forall_mem_append.mpr ⟨hdeclared, hlate⟩
  rw [htools]
  constructor
  · intro tool htool
    obtain ⟨htool, hidle⟩ := mem_withoutIdleSearch.mp htool
    refine mem_withoutIdleSearch.mpr ⟨?_, hidle⟩
    rcases mem_append.mp htool with htool | htool
    · exact mem_append_left _ (hmem tool htool)
    · exact mem_append_right _ htool
  · intro tool htool
    rcases mem_append.mp (mem_withoutIdleSearch.mp htool).1 with htool | htool
    · exact hnamed tool htool
    · exact ⟨_, named_delegationTools tool htool, by decide⟩
  · intro name
    rw [offeredFunctions, firstCalled_withoutIdleSearch hsent,
      firstCalled_withoutIdleSearch hoffered, firstCalled_append,
      firstCalled_append, hfirst]
  · intro tool htool name hname
    obtain ⟨htool, hidle⟩ := mem_withoutIdleSearch.mp htool
    rcases mem_append.mp htool with htool | htool
    · left
      rw [firstCalled_withoutIdleSearch hsent, if_neg, firstCalled_append,
        hunique tool htool name hname, some_or]
      rintro ⟨hoff, rfl⟩
      rcases hidle with hon | hidle
      · exact Bool.false_ne_true (hoff.symm.trans hon)
      · rw [(hdeclared tool (hmem tool htool)).functionToolName, hname] at hidle
        exact hidle (by decide)
    · exact Or.inr htool
  · intro tool htool
    refine mem_withoutIdleSearch.mpr ⟨mem_append_right _ htool, Or.inr ?_⟩
    rw [(hlate tool htool).functionToolName, named_delegationTools tool htool]
    decide

theorem sentFunctions_chat
    (htools : chatRequestTools crates profile (requestTools canonical)
      (embeddedDeclarations canonical) = .ok tools) :
    SentFunctions .chat
      (offeredFunctions .chat profile webSearchEnabled canonical) [] tools := by
  rw [chatRequestTools] at htools
  obtain ⟨merged, hmerged, htools⟩ := exists_of_bind_eq_ok htools
  obtain ⟨hnamed, hmem, hunique, hfirst⟩ := mergedTools_spec hmerged
  have hkept := deduplicate_spec htools
  constructor
  · intro tool htool
    rcases mem_append.mp (hkept.sublist.subset htool) with htool | htool
    · exact mem_append_left _ (hmem tool htool)
    · exact mem_append_right _ htool
  · intro tool htool
    rcases mem_append.mp htool with htool | htool
    · exact hnamed tool htool
    · exact ⟨_, named_delegationTools tool htool, by decide⟩
  · intro name
    rw [hkept.first, offeredFunctions, firstCalled_append, firstCalled_append,
      hfirst]
    rfl
  · exact fun tool htool name hname => Or.inl (hkept.unique tool htool name hname)
  · rintro _ ⟨⟩

/-! The names that are sent. -/

/-- Names of functions that are no images, where images may be rewritten. -/
def PlainNames (crates : AdapterCrates) (route : ProfileAdapterRoute)
    (shape : ToolShape) (tools : List Json) : Prop :=
  isOpencodeGoEndpoint crates route.baseUrl = true →
    ∀ tool ∈ tools, ∀ name, shape.called tool = some name →
      startsWith name "data:image/" = false

theorem called_mapStrings {tool : Json} (change : String → String)
    (hfunction : ToolShape.chat.IsFunction tool) :
    ToolShape.chat.called (mapStrings change tool) =
      (ToolShape.chat.called tool).map change := by
  obtain ⟨name, description, parameters, rfl⟩ := hfunction
  rw [ToolShape.called_tool, ← asStr_mapStrings]
  rfl

section Sent

variable {crates : AdapterCrates} {guidance : EvalGuidance} {original : Json}
  {route : ProfileAdapterRoute} {profile : HarnessProfile}
  {environment : ExecutionEnvironment} {catalogEntry : Option Json}
  {webSearchEnabled : Bool} {replay : ReplayContext}
  {prepared : PreparedUpstreamRequest} {canonical normalized : Json}

variable (hroute : TranslatedRoute route profile) (htidy : original.Tidy)
  (hcanonical : canonicalRequest route original = .ok canonical)
  (hprepared : prepareUpstreamRequestDetails crates guidance original route
    profile environment catalogEntry webSearchEnabled replay = .ok prepared)
include hroute htidy hcanonical hprepared

/-- On the Responses wire the functions, and the choice among them, leave as
they were normalized. -/
theorem leaves_prepared_responses (hwire : route.wire = .responses)
    (hnormalized : normalizedRequest crates.toCrates route profile
      webSearchEnabled canonical = .ok normalized) :
    Leaves ["tools", "tool_choice"] normalized prepared.body := by
  obtain ⟨-, normalized', _, hnormalized', rfl, hbody⟩ :=
    (prepare_iff crates guidance original environment catalogEntry
      webSearchEnabled replay hroute.translated hcanonical).mp hprepared
  obtain rfl := Except.ok.inj (hnormalized.symm.trans hnormalized')
  rw [hwire] at hbody
  obtain ⟨-, -, -, hnormalizedTidy⟩ := requestTools_normalizedRequest
    (tidy_canonicalRequest htidy hcanonical) hroute.provider hwire hnormalized
  have hinstructed : Leaves ["tools", "tool_choice"] normalized
      (instructedRequest route profile environment catalogEntry guidance
        normalized) :=
    leaves_applyRequestTimeInstructions (by decide) _ _ _ _ _ hnormalizedTidy
  rw [hbody]
  dsimp only
  split
  · exact hinstructed.trans (leaves_applyReasoningEffortTransport (by decide)
      _ _ hinstructed.tidy)
  · exact hinstructed

theorem requestTools_prepared_responses (hwire : route.wire = .responses)
    (hnormalized : normalizedRequest crates.toCrates route profile
      webSearchEnabled canonical = .ok normalized) :
    requestTools prepared.body = requestTools normalized :=
  requestTools_congr ((leaves_prepared_responses hroute htidy hcanonical
    hprepared hwire hnormalized).get "tools" (by decide))

/-- What a Chat request leaves with: the functions that were merged, as the
pass over the images leaves them. -/
theorem exists_requestTools_prepared_chat (hwire : route.wire = .chat) :
    normalizedRequest crates.toCrates route profile webSearchEnabled canonical =
        .ok canonical ∧
      ∃ tools change, SentFunctions .chat
          (offeredFunctions .chat profile webSearchEnabled canonical) [] tools ∧
        requestTools prepared.body = tools.map (mapStrings change) ∧
        ImagesOnly change ∧
        (isOpencodeGoEndpoint crates route.baseUrl = false → change = id) := by
  have hgrok : route.providerKind ≠ .grokCli := fun hprovider => by
    have := hwire.symm.trans (hroute.grok hprovider)
    cases this
  have hsame : normalizedRequest crates.toCrates route profile webSearchEnabled
      canonical = .ok canonical := by
    rw [normalizedRequest, if_neg hgrok, hwire, if_neg (by simp)]
  refine ⟨hsame, ?_⟩
  obtain ⟨-, normalized, _, hnormalized, rfl, hchat⟩ :=
    (prepare_iff crates guidance original environment catalogEntry
      webSearchEnabled replay hroute.translated hcanonical).mp hprepared
  obtain rfl := Except.ok.inj (hsame.symm.trans hnormalized)
  rw [hwire] at hchat
  obtain ⟨chat⟩ := exists_chatPrepared hchat
  have hinstructed : Leaves contentKeys canonical (instructedRequest route
      profile environment catalogEntry guidance canonical) :=
    leaves_applyRequestTimeInstructions (by decide) _ _ _ _ _
      (tidy_canonicalRequest htidy hcanonical)
  have htools := chat.tools_eq
  rw [embedded_chatInputItems chat.items_eq,
    requestTools_congr (hinstructed.get "tools" (by decide)),
    embeddedDeclarations, hinstructed.get "input" (by decide),
    ← embeddedDeclarations] at htools
  refine ⟨chat.tools, chat.change, sentFunctions_chat htools, ?_,
    chat.imagesOnly, chat.unchanged⟩
  rw [requestTools, chat.sentTools]
  split
  · rename_i hempty
    rw [List.isEmpty_iff.mp hempty]
    rfl
  · rfl

/-- The names that a translated route sends are those that are offered. -/
theorem mem_sentNames_iff
    (hplain : PlainNames crates route route.wire.shape (offeredFunctions
      route.wire.shape profile webSearchEnabled canonical)) (name : String) :
    name ∈ sentNames route.wire.shape prepared.body ↔
      (route.wire.shape.firstCalled name (offeredFunctions route.wire.shape
        profile webSearchEnabled canonical)).isSome := by
  rw [sentNames, mem_filterMap]
  cases hwire : route.wire with
  | responses =>
    obtain ⟨-, normalized, _, hnormalized, -⟩ :=
      (prepare_iff crates guidance original environment catalogEntry
        webSearchEnabled replay hroute.translated hcanonical).mp hprepared
    have hsent := sentFunctions_responses
      (tidy_canonicalRequest htidy hcanonical) hroute.provider hwire hnormalized
    rw [requestTools_prepared_responses hroute htidy hcanonical hprepared hwire
      hnormalized, RuntimeWireFormat.shape, ← hsent.first, firstCalled_isSome]
  | chat =>
    obtain ⟨-, tools, change, hsent, htools, himages, hid⟩ :=
      exists_requestTools_prepared_chat hroute htidy hcanonical hprepared hwire
    have hcalled (tool : Json) (htool : tool ∈ tools) :
        ToolShape.chat.called (mapStrings change tool) =
          ToolShape.chat.called tool := by
      have hoffered := hsent.mem tool htool
      obtain ⟨called, hname, -⟩ := hsent.named tool hoffered
      rw [called_mapStrings change (isFunction_offeredFunctions tool hoffered),
        hname, map_some]
      congr 1
      cases hendpoint : isOpencodeGoEndpoint crates route.baseUrl with
      | false => rw [hid hendpoint, id_eq]
      | true =>
        rw [hwire] at hplain
        exact himages called (hplain hendpoint tool hoffered called hname)
    rw [htools, RuntimeWireFormat.shape, ← hsent.first, firstCalled_isSome]
    constructor
    · rintro ⟨sent, hsent, hname⟩
      obtain ⟨tool, htool, rfl⟩ := List.mem_map.mp hsent
      exact ⟨tool, htool, (hcalled tool htool).symm.trans hname⟩
    · rintro ⟨tool, htool, hname⟩
      exact ⟨_, List.mem_map_of_mem htool, (hcalled tool htool).trans hname⟩

end Sent

end Vellum.Proxy
