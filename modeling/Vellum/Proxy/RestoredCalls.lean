/-
The native form of an upstream call (`vellum-proxy-runtime/src/adapter.rs`).
The tool context and the namespace context are applied one after the other;
what the first turns into a private item the second leaves alone.
-/
import Vellum.Proxy.NormalizerMessages
import Vellum.Proxy.PreparedChat

namespace Vellum.Proxy

open List Json

/-- A call as a provider makes it: a function call without a namespace. -/
structure UpstreamCall (name : String) (call : Json) : Prop where
  tidy : call.Tidy
  type : call.get "type" = some (.str "function_call")
  name : call.get "name" = some (.str name)
  bare : call.get "namespace" = none

/-- The call as Codex sees it. -/
def restoredCall (crates : Crates) (context : CodexToolContext)
    (namespaces : NamespaceToolContext) (call : Json) : Json :=
  namespaces.restoreItem (context.restoreOutputItem crates call)

namespace UpstreamCall

variable {name : String} {call : Json}

theorem exists_fields (hcall : UpstreamCall name call) :
    ∃ fields, call = .obj fields ∧ (fields.map Prod.fst).Nodup := by
  have htype := hcall.type
  cases call with
  | obj fields => exact ⟨fields, rfl, hcall.tidy fields rfl⟩
  | null | bool | num | str | arr => cases htype

end UpstreamCall

/-- An item that was given a type and lost a field keeps its other fields,
its id apart. -/
theorem get_retyped (crates : Crates) {fields : List (String × Json)}
    (hnodup : (fields.map Prod.fst).Nodup) (kind dropped : String) {key : String}
    (htype : key ≠ "type") (hid : key ≠ "id") (hdropped : key ≠ dropped) :
    (obj (removeField dropped (normalizeOfficialItemId crates
      (insertField "type" (.str kind) fields)))).get key =
        (obj fields).get key := by
  have hofficial := normalizeOfficialItemId_spec crates
    (nodup_insertField hnodup "type" (.str kind))
  rw [get_removeField hofficial.1 hdropped, hofficial.2 key hid,
    get_insertField, if_neg htype]

theorem nodup_retyped (crates : Crates) {fields : List (String × Json)}
    (hnodup : (fields.map Prod.fst).Nodup) (kind dropped : String) :
    ((removeField dropped (normalizeOfficialItemId crates
      (insertField "type" (.str kind) fields))).map Prod.fst).Nodup :=
  nodup_removeField (normalizeOfficialItemId_spec crates
    (nodup_insertField hnodup "type" (.str kind))).1 dropped

/-- What an item has of a restored call: its type, the fields it was given, and
the fields of the call that are not `changed`. -/
structure RestoredAs (call restored : Json) (kind : String)
    (given : List (String × Json)) (changed : List String) : Prop where
  tidy : restored.Tidy
  type : restored.get "type" = some (.str kind)
  given : ∀ field ∈ given, restored.get field.1 = some field.2
  kept : ∀ key, key ∉ changed → restored.get key = call.get key

section Restored

variable (crates : Crates) {context : CodexToolContext}
  {namespaces : NamespaceToolContext} {name : String} {call : Json}

variable (context) in
theorem restoreOutputItem_call (hcall : UpstreamCall name call) :
    ∃ fields, call = .obj fields ∧ (fields.map Prod.fst).Nodup ∧
      context.restoreOutputItem crates call =
        if context.isToolSearch name then
          .obj (CodexToolContext.restoreToolSearch crates fields)
        else if context.isCustom name then
          .obj (CodexToolContext.restoreCustom crates name fields)
        else call := by
  obtain ⟨fields, rfl, hnodup⟩ := hcall.exists_fields
  refine ⟨fields, rfl, hnodup, ?_⟩
  simp only [CodexToolContext.restoreOutputItem, hcall.type, hcall.name,
    Option.bind_some, Json.asStr, if_true]

variable (namespaces) in
theorem restoredAs_search (hcall : UpstreamCall name call)
    (hsearch : context.isToolSearch name = true) :
    RestoredAs call (restoredCall crates context namespaces call)
      "tool_search_call"
      [("arguments", CodexToolContext.toolSearchArguments crates
        (call.get "arguments"))]
      ["type", "id", "name", "arguments", "execution"] := by
  obtain ⟨fields, rfl, hnodup, hrestored⟩ :=
    restoreOutputItem_call crates context hcall
  rw [if_pos hsearch] at hrestored
  have htype := get_type_restoreToolSearch crates hnodup
  rw [restoredCall, hrestored, restoreItem_of_type namespaces htype (by decide)]
  refine ⟨?_, htype, ?_, fun key hkey => ?_⟩
  · rw [tidy_obj_iff]
    exact nodup_insertField (nodup_insertField
      (nodup_retyped crates hnodup _ _) _ _) _ _
  · intro field hfield
    obtain rfl := mem_singleton.mp hfield
    have hexecution : "arguments" ≠ "execution" := by decide
    rw [CodexToolContext.restoreToolSearch, get_insertField, if_neg hexecution,
      get_insertField, if_pos rfl]
  · simp only [mem_cons, not_mem_nil, or_false, not_or] at hkey
    obtain ⟨hkind, hid, hname, harguments, hexecution⟩ := hkey
    rw [CodexToolContext.restoreToolSearch, get_insertField, if_neg hexecution,
      get_insertField, if_neg harguments,
      get_retyped crates hnodup _ _ hkind hid hname]

/-- The free-form body of a call of a custom tool. -/
def restoredInput (crates : Crates) (name : String) (call : Json) : String :=
  let input := customToolInput crates
    (((call.get "arguments").bind Json.asStr).getD "")
  if isApplyPatch name then normalizePatchDelimiters input else input

variable (namespaces) in
theorem restoredAs_custom (hcall : UpstreamCall name call)
    (hsearch : context.isToolSearch name = false)
    (hcustom : context.isCustom name = true) :
    RestoredAs call (restoredCall crates context namespaces call)
      "custom_tool_call" [("input", .str (restoredInput crates name call))]
      ["type", "id", "arguments", "input"] := by
  obtain ⟨fields, rfl, hnodup, hrestored⟩ :=
    restoreOutputItem_call crates context hcall
  rw [hsearch, if_neg Bool.false_ne_true, if_pos hcustom] at hrestored
  have htype := get_type_restoreCustom crates name hnodup
  rw [restoredCall, hrestored, restoreItem_of_type namespaces htype (by decide)]
  refine ⟨?_, htype, ?_, fun key hkey => ?_⟩
  · rw [tidy_obj_iff]
    exact nodup_insertField (nodup_retyped crates hnodup _ _) _ _
  · intro field hfield
    obtain rfl := mem_singleton.mp hfield
    rw [CodexToolContext.restoreCustom, get_insertField, if_pos rfl]
    rfl
  · simp only [mem_cons, not_mem_nil, or_false, not_or] at hkey
    obtain ⟨hkind, hid, harguments, hinput⟩ := hkey
    rw [CodexToolContext.restoreCustom, get_insertField, if_neg hinput,
      get_retyped crates hnodup _ _ hkind hid harguments]

theorem restoredCall_function (hcall : UpstreamCall name call)
    (hsearch : context.isToolSearch name = false)
    (hcustom : context.isCustom name = false) :
    restoredCall crates context namespaces call = namespaces.restoreItem call := by
  obtain ⟨fields, rfl, -, hrestored⟩ :=
    restoreOutputItem_call crates context hcall
  rw [restoredCall, hrestored, hsearch, hcustom, if_neg Bool.false_ne_true,
    if_neg Bool.false_ne_true]

theorem restoreItem_of_split_none (hcall : UpstreamCall name call)
    (hsplit : namespaces.split name = none) :
    namespaces.restoreItem call = call := by
  obtain ⟨fields, rfl, -⟩ := hcall.exists_fields
  simp only [NamespaceToolContext.restoreItem, hcall.type, hcall.name,
    Option.bind_some, Json.asStr, if_true, hsplit]

theorem restoredAs_namespaced {namespaceName child : String}
    (hcall : UpstreamCall name call)
    (hsplit : namespaces.split name = some (namespaceName, child)) :
    RestoredAs call (namespaces.restoreItem call) "function_call"
      [("namespace", .str namespaceName), ("name", .str child)]
      ["namespace", "name"] := by
  obtain ⟨fields, rfl, hnodup⟩ := hcall.exists_fields
  simp only [NamespaceToolContext.restoreItem, hcall.type, hcall.name,
    Option.bind_some, Json.asStr, if_true, hsplit]
  refine ⟨?_, ?_, ?_, fun key hkey => ?_⟩
  · rw [tidy_obj_iff]
    exact nodup_insertField (nodup_insertField hnodup _ _) _ _
  · rw [get_insertField, if_neg (by decide), get_insertField, if_neg (by decide)]
    exact hcall.type
  · simp [get_insertField]
  · simp only [mem_cons, not_mem_nil, or_false, not_or] at hkey
    rw [get_insertField, if_neg hkey.2, get_insertField, if_neg hkey.1]

end Restored

end Vellum.Proxy
