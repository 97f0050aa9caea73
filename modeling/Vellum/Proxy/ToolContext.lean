/-
Tool declarations of a Codex request, and how calls of the declared tools are
turned back into their native form
(`vellum-proxy-runtime/src/adapter.rs`, `CodexToolContext` and
`NamespaceToolContext`).  A provider sees every tool as a function; a call of
a custom tool, of the tool search or of a namespaced tool is restored before
Codex reads it.
-/
import Vellum.Library.Json
import Vellum.Library.Text

namespace Vellum.Proxy

/-- What the adapter calls of other crates: JSON parsing and printing, and
SHA-256 of a text. -/
structure Crates where
  fromStr : String → Option Json
  toStr : Json → String
  sha256 : String → List UInt8

def startsWith (text front : String) : Bool :=
  front.toList.isPrefixOf text.toList

/-- `text.trim().is_empty()`. -/
def isBlank (text : String) : Bool := Text.isBlank text.toList

/-- `format!("{byte:02x}")`. -/
def hexByte (byte : UInt8) : List Char :=
  let digits := "0123456789abcdef".toList
  [digits[byte.toNat / 16]?.getD '0', digits[byte.toNat % 16]?.getD '0']

def normalizedItemId (crates : Crates) (expectedFront source : String) :
    String :=
  if startsWith source expectedFront then source
  else
    let digest := (crates.sha256 source).take 12
    expectedFront ++ "vellum_" ++ String.ofList (digest.flatMap hexByte)

/-- The front an item id has in the official realm, by the item's type. -/
def officialFront (itemType : String) : Option String :=
  if itemType = "message" then some "msg_"
  else if itemType = "function_call" then some "fc_"
  else if itemType = "reasoning" then some "rs_"
  else if itemType = "custom_tool_call" then some "ctc_"
  else if itemType = "tool_search_call" then some "tsc_"
  else none

def normalizeOfficialItemId (crates : Crates)
    (fields : List (String × Json)) : List (String × Json) :=
  match ((Json.obj fields).get "type").bind Json.asStr,
      ((Json.obj fields).get "id").bind Json.asStr with
  | some itemType, some id =>
    match officialFront itemType with
    | some front =>
      Json.insertField "id" (.str (normalizedItemId crates front id)) fields
    | none =>
      if startsWith id "resp_vellum_" || startsWith id "call_" then
        Json.removeField "id" fields
      else fields
  | _, _ => fields

def applyPatchToolName : String := "apply_patch"

def isApplyPatch (name : String) : Bool := name = applyPatchToolName

/-- Change the first line that is not blank, if it is `found`. -/
def replaceFirstLine (found replacement : List Char) :
    List (List Char) → List (List Char)
  | [] => []
  | line :: rest =>
    if Text.isBlank line then line :: replaceFirstLine found replacement rest
    else if Text.trim line = found then replacement :: rest
    else line :: rest

/-- Drop the trailing stars of the two delimiters of a patch. -/
def normalizePatchDelimiters (patch : String) : String :=
  let opened := replaceFirstLine "*** Begin Patch ***".toList
    "*** Begin Patch".toList (Text.lines patch.toList)
  let closed := (replaceFirstLine "*** End Patch ***".toList
    "*** End Patch".toList opened.reverse).reverse
  let normalized := Text.joinLines closed
  String.ofList
    (if patch.toList.getLast? = some '\n' then normalized ++ ['\n']
      else normalized)

/-- The free-form body of a translated custom tool call. -/
def customToolInput (crates : Crates) (arguments : String) : String :=
  if isBlank arguments then ""
  else
    ((crates.fromStr arguments).bind fun value =>
      ((value.get "input").or (value.get "patch")).bind Json.asStr).getD
      arguments

structure CodexToolContext where
  customTools : List String := []
  toolSearch : Bool := false
deriving DecidableEq

/-- The tools a request declares. -/
def requestTools (request : Json) : List Json :=
  ((request.get "tools").bind Json.asArr).getD []

namespace CodexToolContext

variable (crates : Crates) (context : CodexToolContext)

/-- What one declaration adds. -/
def declare (tool : Json) : CodexToolContext :=
  match (tool.get "type").bind Json.asStr with
  | some kind =>
    if kind = "custom" then
      match (tool.get "name").bind Json.asStr with
      | some name =>
        { context with customTools := context.customTools ++ [name] }
      | none => context
    else if kind = "tool_search" then { context with toolSearch := true }
    else context
  | none => context

def fromRequest (request : Json) : CodexToolContext :=
  (requestTools request).foldl declare {}

def isCustom (name : String) : Bool :=
  name ∈ context.customTools

def isToolSearch (name : String) : Bool :=
  context.toolSearch && name = "tool_search"

/-- The arguments of a tool search as a value. -/
def toolSearchArguments : Option Json → Json
  | some (.str arguments) =>
    if isBlank arguments then .obj []
    else (crates.fromStr arguments).getD (.str arguments)
  | some arguments => arguments
  | none => .obj []

/-- A call of the tool search in its native form. -/
def restoreToolSearch (fields : List (String × Json)) : List (String × Json) :=
  let arguments := toolSearchArguments crates ((Json.obj fields).get "arguments")
  let typed := normalizeOfficialItemId crates
    (Json.insertField "type" (.str "tool_search_call") fields)
  Json.insertField "execution" (.str "client")
    (Json.insertField "arguments" arguments (Json.removeField "name" typed))

/-- A call of a custom tool in its native form. -/
def restoreCustom (name : String) (fields : List (String × Json)) :
    List (String × Json) :=
  let input := customToolInput crates
    ((((Json.obj fields).get "arguments").bind Json.asStr).getD "")
  let input := if isApplyPatch name then normalizePatchDelimiters input
    else input
  let typed := normalizeOfficialItemId crates
    (Json.insertField "type" (.str "custom_tool_call") fields)
  Json.insertField "input" (.str input) (Json.removeField "arguments" typed)

/-- Restore a function call to the declared tool's form.  Other items stay as
they are. -/
def restoreOutputItem (item : Json) : Json :=
  match item with
  | .obj fields =>
    if (item.get "type").bind Json.asStr = some "function_call" then
      match (item.get "name").bind Json.asStr with
      | some name =>
        if context.isToolSearch name then
          .obj (restoreToolSearch crates fields)
        else if context.isCustom name then
          .obj (restoreCustom crates name fields)
        else item
      | none => item
    else item
  | _ => item

/-- The front of the item id of a streamed call. -/
def itemFront (name : String) : String :=
  if context.isCustom name then "ctc_"
  else if context.isToolSearch name then "tsc_"
  else "fc_"

end CodexToolContext

def flattenNamespaceName (namespaceName name : String) : String :=
  namespaceName ++ "__" ++ name

/-- Namespaces and their tools, in the order the set is walked. -/
structure NamespaceToolContext where
  flattened : List (String × String) := []

namespace NamespaceToolContext

/-- The namespaced tools one declaration adds. -/
def declare (context : NamespaceToolContext) (tool : Json) :
    NamespaceToolContext :=
  if (tool.get "type").bind Json.asStr = some "namespace" then
    let namespaceName :=
      ((tool.get "name").bind Json.asStr).getD "namespace"
    let names := (((tool.get "tools").bind Json.asArr).getD []).filterMap
      fun child => (child.get "name").bind Json.asStr
    { flattened :=
        context.flattened ++ names.map fun name => (namespaceName, name) }
  else context

def fromRequest (request : Json) : NamespaceToolContext :=
  (requestTools request).foldl declare {}

def split (context : NamespaceToolContext) (name : String) :
    Option (String × String) :=
  context.flattened.find? fun tool =>
    flattenNamespaceName tool.1 tool.2 = name

/-- Restore the namespace of a function call with a flattened name. -/
def restoreItem (context : NamespaceToolContext) (item : Json) : Json :=
  match item with
  | .obj fields =>
    if (item.get "type").bind Json.asStr = some "function_call" then
      match ((item.get "name").bind Json.asStr).bind context.split with
      | some (namespaceName, child) =>
        .obj (Json.insertField "name" (.str child)
          (Json.insertField "namespace" (.str namespaceName) fields))
      | none => item
    else item
  | _ => item

end NamespaceToolContext

theorem restoreItem_of_type (namespaces : NamespaceToolContext) {item : Json}
    {kind : String} (htype : item.get "type" = some (.str kind))
    (hkind : kind ≠ "function_call") : namespaces.restoreItem item = item := by
  cases item with
  | obj fields =>
    rw [NamespaceToolContext.restoreItem, htype, if_neg]
    simpa [Json.asStr] using hkind
  | null | bool | num | str | arr => rfl

/-- Restoring a namespace leaves the other fields alone. -/
theorem get_restoreItem (namespaces : NamespaceToolContext) (item : Json)
    {key : String} (hname : key ≠ "name") (hnamespace : key ≠ "namespace") :
    (namespaces.restoreItem item).get key = item.get key := by
  cases item with
  | obj fields =>
    simp only [NamespaceToolContext.restoreItem]
    split
    · split
      · rw [Json.get_insertField, if_neg hname, Json.get_insertField,
          if_neg hnamespace]
      · rfl
    · rfl
  | null | bool | num | str | arr => rfl

end Vellum.Proxy
