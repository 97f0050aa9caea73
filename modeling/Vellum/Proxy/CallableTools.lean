/-
Which offered functions can be called back.  A function is offered for a
declaration of the request, wherever that stands; a call of it is restored with
the tools that the contexts find at the top of the request.
-/
import Vellum.Proxy.OfferedTools
import Vellum.Proxy.RestoredCalls

namespace Vellum.Proxy

open List Json

/-! What a function is offered for. -/

inductive CalledKind where
  | function
  | custom
  | toolSearch
deriving DecidableEq

/-- What a call is for: a kind of tool, its namespace and its name. -/
structure ToolTarget where
  kind : CalledKind
  namespaceName : Option String
  name : String
deriving DecidableEq

/-- A tool that is not a function of its own name already. -/
def ToolTarget.Native (target : ToolTarget) : Prop :=
  target.kind ≠ .function ∨ target.namespaceName ≠ none

/-- A function and what it was made of. -/
structure Offer where
  tool : Json
  target : ToolTarget

/-- The kind of a declaration, as calls of it have one. -/
def calledKind (tool : Json) : CalledKind :=
  match toolKind tool with
  | some kind =>
    if kind = "custom" then .custom
    else if kind = "tool_search" then .toolSearch
    else .function
  | none => .function

namespace Offer

/-- The offer of a declaration outside of a namespace. -/
def own (shape : ToolShape) (declared function : Json) : Offer where
  tool := function
  target := ⟨calledKind declared, none, (shape.called function).getD "tool"⟩

/-- An offer of a namespace under the name of the flattened function; a nested
one stays in its own namespace. -/
def within (declared : Json) (flatten : Json → Json → Json) (offer : Offer) :
    Offer where
  tool := flatten declared offer.tool
  target :=
    { offer.target with
      namespaceName := some (offer.target.namespaceName.getD
        ((toolText declared "name").getD "namespace")) }

end Offer

mutual

/-- The offers of a declaration in the Responses form. -/
def grokOffers (profile : HarnessProfile) : Json → List Offer
  | .obj fields =>
    let tool := Json.obj fields
    if toolKind tool = some "namespace" then
      let translated := offerFields profile fields
      ((((translated.lookup "tools").or
        (translated.lookup "functions")).join).getD []).map
          (Offer.within tool flattenChild)
    else (grokFunctionTools profile tool).map (Offer.own .responses tool)
  | _ => []

def offerFields (profile : HarnessProfile) :
    List (String × Json) → List (String × Option (List Offer))
  | [] => []
  | (name, value) :: rest =>
    (name, offerList profile value) :: offerFields profile rest

def offerList (profile : HarnessProfile) : Json → Option (List Offer)
  | .arr items => some (offerItems profile items)
  | _ => none

def offerItems (profile : HarnessProfile) : List Json → List Offer
  | [] => []
  | item :: rest => grokOffers profile item ++ offerItems profile rest

end

/-- The offers of a declaration in the Chat form. -/
def chatOffers (profile : HarnessProfile) (tool : Json) : List Offer :=
  if toolKind tool = some "namespace" then
    (namespaceChildren tool).flatMap fun child =>
      (normalizeFunctionTool child).toList.map fun function =>
        (Offer.own .chat child function).within tool flattenChatChild
  else (chatTools profile tool).map (Offer.own .chat tool)

def ToolShape.offers (shape : ToolShape) (profile : HarnessProfile)
    (tool : Json) : List Offer :=
  match shape with
  | .responses => grokOffers profile tool
  | .chat => chatOffers profile tool

section

variable (shape : ToolShape) (request : Json) (context : CodexToolContext)
  (profile : HarnessProfile) (name : String) (tool : Json)

theorem offerItems_eq_flatMap (items : List Json) :
    offerItems profile items = items.flatMap (grokOffers profile) := by
  induction items with
  | nil => rfl
  | cons item rest ih => rw [offerItems, ih, flatMap_cons]

theorem lookup_offerFields (fields : List (String × Json)) :
    (offerFields profile fields).lookup name =
      ((obj fields).get name).map (offerList profile) := by
  induction fields with
  | nil => rfl
  | cons field rest ih =>
    obtain ⟨key, value⟩ := field
    rw [offerFields, lookup_cons, get_cons, ih]
    by_cases hkey : key = name
    · subst hkey
      simp
    · rw [if_neg hkey, beq_false_of_ne (Ne.symm hkey)]

theorem grokOffers_namespace {tool : Json}
    (hkind : toolKind tool = some "namespace") :
    grokOffers profile tool =
      ((namespaceChildren tool).flatMap (grokOffers profile)).map
        (Offer.within tool flattenChild) := by
  cases tool with
  | obj fields =>
    have hlist (value : Option Json) :
        ((value.map (offerList profile)).join).getD [] =
          ((value.bind asArr).getD []).flatMap (grokOffers profile) := by
      cases value with
      | none => rfl
      | some value =>
        cases value with
        | arr items => exact offerItems_eq_flatMap profile items
        | null | bool | num | str | obj => rfl
    rw [grokOffers]
    simp only [hkind, if_true, lookup_offerFields, ← Option.map_or, hlist]
    rfl
  | null | bool | num | str | arr => cases hkind

theorem grokOffers_of_ne {tool : Json}
    (hkind : toolKind tool ≠ some "namespace") :
    grokOffers profile tool =
      (grokFunctionTools profile tool).map (Offer.own .responses tool) := by
  cases tool with
  | obj fields =>
    rw [grokOffers]
    simp only [hkind, if_false]
  | null | bool | num | str | arr => rw [grokOffers, grokFunctionTools] <;> simp

theorem map_tool_offers (shape : ToolShape) (profile : HarnessProfile)
    (tool : Json) :
    (shape.offers profile tool).map Offer.tool = shape.translate profile tool := by
  cases shape with
  | chat =>
    rw [ToolShape.offers, ToolShape.translate, chatOffers]
    split
    · rename_i hkind
      have htools : chatTools profile tool =
          ((namespaceChildren tool).filterMap normalizeFunctionTool).map
            (flattenChatChild tool) := by
        simp only [chatTools, hkind]
        rfl
      rw [htools, map_flatMap]
      induction namespaceChildren tool with
      | nil => rfl
      | cons child rest ih =>
        rw [flatMap_cons, ih, filterMap_cons]
        cases normalizeFunctionTool child with
        | none => rfl
        | some function => rfl
    · rw [map_map]
      exact map_id _
  | responses =>
    rw [ToolShape.offers, ToolShape.translate]
    induction tool using declaration_induction with
    | step tool ih =>
      by_cases hkind : toolKind tool = some "namespace"
      · rw [grokOffers_namespace profile hkind,
          grokFunctionTools_namespace profile hkind, map_map]
        have hchildren : ((namespaceChildren tool).flatMap
            (grokOffers profile)).map Offer.tool =
              (namespaceChildren tool).flatMap
                (grokFunctionTools profile) := by
          rw [map_flatMap]
          exact flatMap_congr ih
        rw [← hchildren, map_map]
        rfl
      · rw [grokOffers_of_ne profile hkind, map_map]
        exact map_id _

/-! The offers of a request. -/

variable (shape : ToolShape) (profile : HarnessProfile)

/-- The offers of the request's own declarations. -/
def ownOffers (raw : List Json) : List Offer :=
  let customNames := (raw.filter isCustomTool).filterMap functionToolName
  ((raw.filter (!isCustomTool ·)).flatMap (shape.offers profile)).filter
      (fun offer => unnamedIn customNames offer.tool) ++
    (raw.filter isCustomTool).flatMap (shape.offers profile)

/-- The offers of a request with those that its input embeds. -/
def declaredOffers (raw embedded : List Json) : List Offer :=
  let own := ownOffers shape profile raw
  let names := (own.map Offer.tool).filterMap functionToolName
  own ++ (embedded.flatMap (shape.offers profile)).filter
    fun offer => unnamedIn names offer.tool

/-- The function of the delegation runtime is no declaration of the request. -/
def delegationOffers : List Offer :=
  (delegationTools shape profile).map fun function =>
    { tool := function, target := ⟨.function, none, delegationName⟩ }

/-- The offers of a request in the order in which the first of a name is
sent. -/
def requestOffers (webSearchEnabled : Bool) (body : Json) : List Offer :=
  let offers := declaredOffers shape profile (requestTools body)
    (embeddedDeclarations body) ++ delegationOffers shape profile
  match shape with
  | .responses =>
    if webSearchEnabled then offers
    else offers.filter fun offer =>
      functionToolName offer.tool ≠ some "web_search"
  | .chat => offers

theorem map_tool_flatMap_offers (declared : List Json) :
    (declared.flatMap (shape.offers profile)).map Offer.tool =
      declared.flatMap (shape.translate profile) := by
  rw [map_flatMap]
  exact flatMap_congr fun tool _ => map_tool_offers shape profile tool

theorem map_tool_filter (keep : Json → Bool) (offers : List Offer) :
    (offers.filter fun offer => keep offer.tool).map Offer.tool =
      (offers.map Offer.tool).filter keep :=
  filter_map.symm

theorem map_tool_ownOffers (raw : List Json) :
    (ownOffers shape profile raw).map Offer.tool =
      expandedTopLevel shape profile raw := by
  rw [ownOffers, expandedTopLevel, map_append, map_tool_filter,
    map_tool_flatMap_offers, map_tool_flatMap_offers]

theorem map_tool_declaredOffers (raw embedded : List Json) :
    (declaredOffers shape profile raw embedded).map Offer.tool =
      declaredFunctions shape profile raw embedded := by
  rw [declaredOffers, declaredFunctions]
  simp only [map_tool_ownOffers]
  rw [map_append, map_tool_ownOffers, map_tool_filter,
    map_tool_flatMap_offers]

theorem map_tool_requestOffers (webSearchEnabled : Bool) (body : Json) :
    (requestOffers shape profile webSearchEnabled body).map Offer.tool =
      offeredFunctions shape profile webSearchEnabled body := by
  have hdelegation : (delegationOffers shape profile).map Offer.tool =
      delegationTools shape profile := by
    rw [delegationOffers, map_map]
    exact map_id _
  have hall : (declaredOffers shape profile (requestTools body)
      (embeddedDeclarations body) ++ delegationOffers shape profile).map
        Offer.tool =
      declaredFunctions shape profile (requestTools body)
        (embeddedDeclarations body) ++ delegationTools shape profile := by
    rw [map_append, map_tool_declaredOffers, hdelegation]
  unfold requestOffers offeredFunctions
  extract_lets offers functions
  cases shape with
  | chat => exact hall
  | responses =>
    simp only [withoutIdleSearch]
    split
    · exact hall
    · rw [map_tool_filter fun tool => decide
        (functionToolName tool ≠ some "web_search"), hall]

/-- What the first offer of a name was made of. -/
def origin (offers : List Offer) (name : String) : Option ToolTarget :=
  (offers.find? fun offer => shape.called offer.tool = some name).map Offer.target

theorem origin_isSome (offers : List Offer) (name : String) :
    (origin shape offers name).isSome =
      (shape.firstCalled name (offers.map Offer.tool)).isSome := by
  rw [origin, ToolShape.firstCalled, find?_map, Option.isSome_map,
    Option.isSome_map]
  rfl

/-! What the contexts find. -/

/-- A custom tool of the name stands at the top of the request. -/
def DeclaresCustom (request : Json) (name : String) : Prop :=
  ∃ tool ∈ requestTools request,
    toolKind tool = some "custom" ∧ toolText tool "name" = some name

/-- A tool search stands at the top of the request. -/
def DeclaresSearch (request : Json) : Prop :=
  ∃ tool ∈ requestTools request, toolKind tool = some "tool_search"

/-- A namespace at the top of the request has a child of the name under
`tools`. -/
def DeclaresChild (request : Json) (namespaceName child : String) : Prop :=
  ∃ tool ∈ requestTools request, toolKind tool = some "namespace" ∧
    (toolText tool "name").getD "namespace" = namespaceName ∧
    ∃ declared ∈ ((tool.get "tools").bind asArr).getD [],
      toolText declared "name" = some child

theorem declare_customTools (name : String) :
    name ∈ (context.declare tool).customTools ↔ name ∈ context.customTools ∨
      (toolKind tool = some "custom" ∧ toolText tool "name" = some name) := by
  unfold CodexToolContext.declare
  change name ∈ (match toolKind tool with
    | some kind => _
    | none => _ : CodexToolContext).customTools ↔ _
  cases hkind : toolKind tool with
  | none => simp
  | some kind =>
    by_cases hcustom : kind = "custom"
    · cases hname : toolText tool "name" with
      | none =>
        rw [toolText] at hname
        simp [hcustom, hname]
      | some declared =>
        rw [toolText] at hname
        simp [hcustom, hname, eq_comm]
    · by_cases hsearch : kind = "tool_search" <;> simp [hcustom, hsearch]

theorem declare_toolSearch :
    (context.declare tool).toolSearch = true ↔ context.toolSearch = true ∨
      toolKind tool = some "tool_search" := by
  unfold CodexToolContext.declare
  change (match toolKind tool with
    | some kind => _
    | none => _ : CodexToolContext).toolSearch = true ↔ _
  cases hkind : toolKind tool with
  | none => simp
  | some kind =>
    by_cases hcustom : kind = "custom"
    · cases (tool.get "name").bind asStr <;> simp [hcustom]
    · by_cases hsearch : kind = "tool_search" <;> simp [hcustom, hsearch]

theorem declare_flattened (context : NamespaceToolContext) (tool : Json)
    (namespaceName child : String) :
    (namespaceName, child) ∈ (context.declare tool).flattened ↔
      (namespaceName, child) ∈ context.flattened ∨
        (toolKind tool = some "namespace" ∧
          (toolText tool "name").getD "namespace" = namespaceName ∧
          ∃ declared ∈ ((tool.get "tools").bind asArr).getD [],
            toolText declared "name" = some child) := by
  unfold NamespaceToolContext.declare
  change _ ∈ (if toolKind tool = some "namespace" then _
    else _ : NamespaceToolContext).flattened ↔ _
  split
  · rename_i hkind
    simp only [mem_append, mem_map, mem_filterMap, Prod.mk.injEq,
      hkind, true_and]
    refine or_congr_right ⟨?_, ?_⟩
    · rintro ⟨name, ⟨declared, hdeclared, hname⟩, hnamespace, rfl⟩
      exact ⟨hnamespace, declared, hdeclared, hname⟩
    · rintro ⟨hnamespace, declared, hdeclared, hname⟩
      exact ⟨child, ⟨declared, hdeclared, hname⟩, hnamespace, rfl⟩
  · rename_i hkind
    simp [hkind]

theorem foldl_declares {α σ : Type} (holds : σ → Prop) {declares : α → Prop}
    {step : σ → α → σ}
    (hstep : ∀ state entry, holds (step state entry) ↔
      holds state ∨ declares entry) (state : σ) (entries : List α) :
    holds (entries.foldl step state) ↔
      holds state ∨ ∃ entry ∈ entries, declares entry := by
  induction entries generalizing state with
  | nil => simp
  | cons entry rest ih =>
    rw [foldl_cons, ih, hstep, or_assoc]
    simp only [exists_mem_cons_iff]

theorem isCustom_fromRequest :
    (CodexToolContext.fromRequest request).isCustom name = true ↔
      DeclaresCustom request name := by
  have hfold := foldl_declares (fun context : CodexToolContext =>
    name ∈ context.customTools) (fun context tool =>
      declare_customTools context tool name) {} (requestTools request)
  rw [CodexToolContext.isCustom, decide_eq_true_eq]
  exact hfold.trans (or_iff_right not_mem_nil)

theorem isToolSearch_fromRequest :
    (CodexToolContext.fromRequest request).isToolSearch name = true ↔
      DeclaresSearch request ∧ name = "tool_search" := by
  have hfold := foldl_declares (fun context : CodexToolContext =>
    context.toolSearch = true) declare_toolSearch {} (requestTools request)
  rw [CodexToolContext.isToolSearch, Bool.and_eq_true, decide_eq_true_eq]
  exact and_congr_left' (hfold.trans (or_iff_right Bool.false_ne_true))

theorem mem_flattened_fromRequest (namespaceName child : String) :
    (namespaceName, child) ∈
        (NamespaceToolContext.fromRequest request).flattened ↔
      DeclaresChild request namespaceName child := by
  have hfold := foldl_declares (fun context : NamespaceToolContext =>
    (namespaceName, child) ∈ context.flattened) (fun context tool =>
      declare_flattened context tool namespaceName child) {}
    (requestTools request)
  exact hfold.trans (or_iff_right not_mem_nil)

/-! What a call is restored to. -/

/-- What an item calls. -/
def toolTarget (item : Json) : Option ToolTarget :=
  match itemType item with
  | some kind =>
    if kind = "tool_search_call" then
      some ⟨.toolSearch, toolText item "namespace", "tool_search"⟩
    else
      (toolText item "name").bind fun name =>
        if kind = "custom_tool_call" then
          some ⟨.custom, toolText item "namespace", name⟩
        else if kind = "function_call" then
          some ⟨.function, toolText item "namespace", name⟩
        else none
  | none => none

/-- What a call of a name is restored to. -/
def restoredTarget (context : CodexToolContext)
    (namespaces : NamespaceToolContext) (name : String) : ToolTarget :=
  if context.isToolSearch name then ⟨.toolSearch, none, "tool_search"⟩
  else if context.isCustom name then ⟨.custom, none, name⟩
  else
    match namespaces.split name with
    | some (namespaceName, child) => ⟨.function, some namespaceName, child⟩
    | none => ⟨.function, none, name⟩

theorem toolTarget_restoredCall (crates : Crates) (context : CodexToolContext)
    (namespaces : NamespaceToolContext) {name : String} {call : Json}
    (hcall : UpstreamCall name call) :
    toolTarget (restoredCall crates context namespaces call) =
      some (restoredTarget context namespaces name) := by
  rw [restoredTarget]
  cases hsearch : context.isToolSearch name with
  | true =>
    have hrestored := restoredAs_search crates namespaces hcall
      hsearch
    have hbare := hrestored.kept "namespace" (by decide)
    rw [hcall.bare] at hbare
    simp [toolTarget, itemType, toolText, hrestored.type, hbare, asStr]
  | false =>
    cases hcustom : context.isCustom name with
    | true =>
      have hrestored := restoredAs_custom crates namespaces
        hcall hsearch hcustom
      have hbare := hrestored.kept "namespace" (by decide)
      have hname := hrestored.kept "name" (by decide)
      rw [hcall.bare] at hbare
      rw [hcall.name] at hname
      simp [toolTarget, itemType, toolText, hrestored.type, hbare, hname,
        asStr]
    | false =>
      rw [restoredCall_function crates hcall hsearch hcustom]
      cases hsplit : namespaces.split name with
      | none =>
        rw [restoreItem_of_split_none hcall hsplit]
        simp [toolTarget, itemType, toolText, hcall.type, hcall.bare,
          hcall.name, asStr]
      | some pair =>
        obtain ⟨namespaceName, child⟩ := pair
        have hrestored := restoredAs_namespaced hcall hsplit
        have hnamespace := hrestored.given ("namespace", .str namespaceName)
          mem_cons_self
        have hname := hrestored.given ("name", .str child)
          (mem_cons_of_mem _ mem_cons_self)
        simp [toolTarget, itemType, toolText, hrestored.type, hnamespace,
          hname, asStr]

/-- Two contexts of the same set, walked in any order. -/
def NamespaceToolContext.SameTools (left right : NamespaceToolContext) : Prop :=
  ∀ tool, tool ∈ left.flattened ↔ tool ∈ right.flattened

/-- Every call of a name is restored to the target, in whatever order the set
of namespaced tools is walked. -/
def CalledBack (crates : Crates) (request : Json) (name : String)
    (target : ToolTarget) : Prop :=
  ∀ namespaces : NamespaceToolContext,
    namespaces.SameTools (.fromRequest request) →
    ∀ call, UpstreamCall name call →
      toolTarget (restoredCall crates (.fromRequest request) namespaces call) =
        some target

/-- Where the contexts find a target under a name. -/
inductive Restorable (request : Json) (name : String) : ToolTarget → Prop where
  | search (hdeclared : DeclaresSearch request) (hname : name = "tool_search") :
      Restorable request name ⟨.toolSearch, none, "tool_search"⟩
  | custom (hdeclared : DeclaresCustom request name)
      (hsearch : ¬ (DeclaresSearch request ∧ name = "tool_search")) :
      Restorable request name ⟨.custom, none, name⟩
  | child (namespaceName child : String)
      (hdeclared : DeclaresChild request namespaceName child)
      (hname : flattenNamespaceName namespaceName child = name)
      (honly : ∀ other name', DeclaresChild request other name' →
        flattenNamespaceName other name' = name →
          other = namespaceName ∧ name' = child)
      (hcustom : ¬ DeclaresCustom request name)
      (hsearch : ¬ (DeclaresSearch request ∧ name = "tool_search")) :
      Restorable request name ⟨.function, some namespaceName, child⟩

/-- A call that has nothing but its name. -/
def bareCall (name : String) : Json :=
  .obj [("type", .str "function_call"), ("name", .str name)]

theorem upstreamCall_bareCall : UpstreamCall name (bareCall name) := by
  refine ⟨tidy_obj_iff.mpr (by simp), rfl, rfl, rfl⟩

end

theorem split_eq_some {namespaces : NamespaceToolContext}
    {name namespaceName child : String}
    (hsplit : namespaces.split name = some (namespaceName, child)) :
    (namespaceName, child) ∈ namespaces.flattened ∧
      flattenNamespaceName namespaceName child = name :=
  ⟨mem_of_find?_eq_some hsplit, by simpa using find?_some hsplit⟩

/-- A set can be walked from any of its entries. -/
theorem exists_split_eq {namespaces : NamespaceToolContext}
    {namespaceName child : String}
    (hmem : (namespaceName, child) ∈ namespaces.flattened) :
    ∃ walked : NamespaceToolContext, walked.SameTools namespaces ∧
      walked.split (flattenNamespaceName namespaceName child) =
        some (namespaceName, child) := by
  refine ⟨⟨(namespaceName, child) :: namespaces.flattened⟩, fun tool => ?_, ?_⟩
  · rw [mem_cons]
    exact or_iff_right_of_imp fun heq => heq ▸ hmem
  · rw [NamespaceToolContext.split, find?_cons_of_pos]
    simp

theorem calledBack_iff_restorable {crates : Crates} {request : Json}
    {name : String} {target : ToolTarget} (hnative : target.Native) :
    CalledBack crates request name target ↔ Restorable request name target := by
  have hcalled : CalledBack crates request name target ↔
      ∀ namespaces : NamespaceToolContext,
        namespaces.SameTools (.fromRequest request) →
        restoredTarget (.fromRequest request) namespaces name = target := by
    constructor
    · intro hback namespaces hsame
      have hrestored := hback namespaces hsame _ (upstreamCall_bareCall name)
      rw [toolTarget_restoredCall crates _ _ (upstreamCall_bareCall name)]
        at hrestored
      exact Option.some.inj hrestored
    · intro hback namespaces hsame call hcall
      rw [toolTarget_restoredCall crates _ _ hcall, hback namespaces hsame]
  have hsearch := isToolSearch_fromRequest request name
  have hcustom := isCustom_fromRequest request name
  rw [hcalled]
  constructor
  · intro hback
    have hown := hback (.fromRequest request) fun _ => Iff.rfl
    rw [restoredTarget] at hown
    split_ifs at hown with hissearch hiscustom
    · obtain ⟨hdeclared, hname⟩ := hsearch.mp hissearch
      exact hown ▸ .search hdeclared hname
    · exact hown ▸ .custom (hcustom.mp hiscustom) (mt hsearch.mpr hissearch)
    · split at hown
      · rename_i namespaceName child hsplit
        obtain ⟨hmem, hname⟩ := split_eq_some hsplit
        rw [mem_flattened_fromRequest] at hmem
        rw [← hown]
        refine .child namespaceName child hmem hname ?_
          (mt hcustom.mpr hiscustom) (mt hsearch.mpr hissearch)
        intro other name' hother hflatten
        obtain ⟨walked, hsame, hwalked⟩ :=
          exists_split_eq ((mem_flattened_fromRequest _ _ _).mpr hother)
        have hagain := hback walked hsame
        rw [restoredTarget, if_neg hissearch, if_neg hiscustom, ← hflatten,
          hwalked, ← hown] at hagain
        simp only [ToolTarget.mk.injEq, Option.some.injEq, true_and] at hagain
        exact hagain
      · rw [← hown] at hnative
        exact absurd hnative (by simp [ToolTarget.Native])
  · intro hrestorable namespaces hsame
    rw [restoredTarget]
    cases hrestorable with
    | search hdeclared hname => rw [if_pos (hsearch.mpr ⟨hdeclared, hname⟩)]
    | custom hdeclared hother =>
      rw [if_neg (mt hsearch.mp hother), if_pos (hcustom.mpr hdeclared)]
    | child namespaceName child hdeclared hname honly hfree hother =>
      rw [if_neg (mt hsearch.mp hother), if_neg (mt hcustom.mp hfree)]
      have hmem := (hsame _).mpr
        ((mem_flattened_fromRequest _ _ _).mpr hdeclared)
      cases hsplit : namespaces.split name with
      | none =>
        have hnone := find?_eq_none.mp hsplit _ hmem
        exact absurd hname (by simpa using hnone)
      | some pair =>
        obtain ⟨other, name'⟩ := pair
        obtain ⟨hfound, hflatten⟩ := split_eq_some hsplit
        obtain ⟨rfl, rfl⟩ := honly other name'
          ((mem_flattened_fromRequest _ _ _).mp ((hsame _).mp hfound))
          hflatten
        rfl

section Sent

variable {crates : AdapterCrates} {guidance : EvalGuidance} {original : Json}
  {route : ProfileAdapterRoute} {profile : HarnessProfile}
  {environment : ExecutionEnvironment} {catalogEntry : Option Json}
  {webSearchEnabled : Bool} {replay : ReplayContext}
  {prepared : PreparedUpstreamRequest} {canonical : Json}

/-- Every name that is sent for a native tool can be called back if and only if
the contexts find each such tool where the name's first offer has it. -/
theorem callable_iff (hroute : TranslatedRoute route profile)
    (hdistinct : original.distinct = true)
    (hcanonical : canonicalRequest route original = .ok canonical)
    (hprepared : prepareUpstreamRequestDetails crates guidance original route
      profile environment catalogEntry webSearchEnabled replay = .ok prepared)
    (hplain : PlainNames crates route route.wire.shape (offeredFunctions
      route.wire.shape profile webSearchEnabled canonical)) :
    (∀ name ∈ sentNames route.wire.shape prepared.body, ∀ target,
      origin route.wire.shape (requestOffers route.wire.shape profile
        webSearchEnabled canonical) name = some target → target.Native →
      CalledBack crates.toCrates original name target) ↔
    ∀ name target, origin route.wire.shape (requestOffers route.wire.shape
        profile webSearchEnabled canonical) name = some target →
      target.Native → Restorable original name target := by
  constructor
  · intro hback name target horigin hnative
    refine (calledBack_iff_restorable hnative).mp
      (hback name ?_ target horigin hnative)
    rw [mem_sentNames_iff hroute (Tidy.of_distinct hdistinct) hcanonical
      hprepared hplain, ← map_tool_requestOffers, ← origin_isSome, horigin]
    rfl
  · intro hrestorable name _ target horigin hnative
    exact (calledBack_iff_restorable hnative).mpr
      (hrestorable name target horigin hnative)

end Sent

/-! A namespace that lists its children under `functions` is translated, and
not found again. -/

namespace LostNamespace

def request : Json :=
  .obj [("model", .str "m"), ("input", .str "hi"), ("tools", .arr
    [.obj [("type", .str "namespace"), ("name", .str "web"),
      ("functions", .arr [.obj [("type", .str "function"), ("name", .str "run"),
        ("parameters", typeSchema "object")]])]])]

def crates : AdapterCrates where
  fromStr _ := none
  toStr _ := ""
  sha256 _ := []
  recompress _ _ _ := none
  parseUrl _ := none
  printUrl _ := ""

def route : ProfileAdapterRoute where
  upstreamModel := "m"
  reasoning := false
  vision := false
  providerKind := .openAiCompatible
  wire := .responses
  baseUrl := "https://example.test/v1"

def profile : HarnessProfile := .generic .responses

def target : ToolTarget := ⟨.function, some "web", "run"⟩

theorem routed : TranslatedRoute route profile := ⟨rfl, by decide, by decide⟩

theorem canonicalRequest_eq : canonicalRequest route request = .ok request := by
  decide

theorem plainNames : PlainNames crates route .responses
    (offeredFunctions .responses profile false request) := by
  intro hendpoint
  exact absurd hendpoint (by decide)

theorem exists_prepared : ∃ prepared, prepareUpstreamRequestDetails crates {}
    request route profile .posixReference none false {} = .ok prepared := by
  have hnormalized : ∃ normalized, normalizedRequest crates.toCrates route profile
      false request = .ok normalized := ⟨_, rfl⟩
  obtain ⟨normalized, hnormalized⟩ := hnormalized
  exact ⟨_, (prepare_iff crates {} request .posixReference none false {} rfl
    canonicalRequest_eq).mpr ⟨rfl, normalized, _, hnormalized, rfl, rfl⟩⟩

theorem origin_run : origin .responses
    (requestOffers .responses profile false request) "web__run" =
      some target := by
  decide

theorem not_restorable : ¬ Restorable request "web__run" target := by
  intro hrestorable
  cases hrestorable with
  | child _ _ hdeclared =>
    obtain ⟨tool, htool, -, -, declared, hdeclared, -⟩ := hdeclared
    obtain rfl := mem_singleton.mp htool
    cases hdeclared

/-- The function is sent, and a call of it does not find its namespace. -/
theorem call_loses_namespace : ∃ prepared,
    prepareUpstreamRequestDetails crates {} request route profile
        .posixReference none false {} = .ok prepared ∧
      "web__run" ∈ sentNames .responses prepared.body ∧
      origin .responses (requestOffers .responses profile false request)
        "web__run" = some target ∧
      ¬ CalledBack crates.toCrates request "web__run" target := by
  obtain ⟨prepared, hprepared⟩ := exists_prepared
  refine ⟨prepared, hprepared, ?_, origin_run, ?_⟩
  · refine (mem_sentNames_iff routed (Tidy.of_distinct (by decide))
      canonicalRequest_eq hprepared plainNames "web__run").mpr ?_
    change (ToolShape.responses.firstCalled "web__run"
      (offeredFunctions .responses profile false request)).isSome = true
    rw [← map_tool_requestOffers, ← origin_isSome, origin_run]
    rfl
  · exact mt (calledBack_iff_restorable (Or.inr (by decide))).mp not_restorable

/-- Not every tool of the request can be called back. -/
theorem not_callable : ∃ prepared,
    prepareUpstreamRequestDetails crates {} request route profile
        .posixReference none false {} = .ok prepared ∧
      ¬ ∀ name ∈ sentNames .responses prepared.body, ∀ target,
        origin .responses (requestOffers .responses profile false request)
          name = some target → target.Native →
        CalledBack crates.toCrates request name target := by
  obtain ⟨prepared, hprepared⟩ := exists_prepared
  refine ⟨prepared, hprepared, fun hback => ?_⟩
  exact not_restorable ((callable_iff routed (by decide)
    canonicalRequest_eq hprepared plainNames).mp hback "web__run" target
      origin_run (Or.inr (by decide)))

end LostNamespace

end Vellum.Proxy
