/-
A call and its replay.  What a provider called is restored for Codex, comes
back in the history of the next request, and is put into its public form for
the provider again.
-/
import Vellum.Proxy.CallableTools

namespace Vellum.Proxy

open List Json

/-! The public form of a restored call. -/

variable {fields : List (String × Json)}

theorem nodup_stripInternalFields (hnodup : (fields.map Prod.fst).Nodup) :
    ((stripInternalFields fields).map Prod.fst).Nodup :=
  hnodup.sublist (filter_sublist.map Prod.fst)

/-- What only the proxy reads of an item is gone. -/
theorem get_visible (hnodup : (fields.map Prod.fst).Nodup) {key : String}
    (hinternal : startsWith key "internal_" = false)
    (hmeta : key ≠ "metadata") :
    (obj (stripVellumCheckpointMetadata (stripInternalFields fields))).get key =
      (obj fields).get key := by
  have hkept : (obj (stripInternalFields fields)).get key =
      (obj fields).get key := by
    simp only [stripInternalFields, Json.get, find?_filter]
    congr 2
    funext field
    by_cases hname : field.1 = key
    · simp [hname, hinternal]
    · simp [hname]
  have hnodup' := nodup_stripInternalFields hnodup
  rw [← hkept, stripVellumCheckpointMetadata]
  split
  · split
    · extract_lets rest
      split
      · exact get_removeField hnodup' hmeta
      · rw [get_insertField, if_neg hmeta]
    · rfl
  · rfl

theorem nodup_visible (hnodup : (fields.map Prod.fst).Nodup) :
    ((stripVellumCheckpointMetadata (stripInternalFields fields)).map
      Prod.fst).Nodup := by
  have hnodup' := nodup_stripInternalFields hnodup
  rw [stripVellumCheckpointMetadata]
  split
  · split
    · extract_lets rest
      split
      · exact nodup_removeField hnodup' _
      · exact nodup_insertField hnodup' _ _
    · exact hnodup'
  · exact hnodup'

section Normalize

variable (crates : Crates) (profile : HarnessProfile) {item : Json}
  {callId : Json}

/-- What an item is, without the proxy's own fields. -/
theorem exists_visible {kind : String} (htidy : item.Tidy)
    (htype : item.get "type" = some (.str kind)) :
    ∃ fields, item = .obj fields ∧
      ∀ key, startsWith key "internal_" = false → key ≠ "metadata" →
        (obj (stripVellumCheckpointMetadata (stripInternalFields fields))).get
          key = item.get key := by
  cases item with
  | obj fields =>
    exact ⟨fields, rfl, fun key hinternal hmeta =>
      get_visible (htidy fields rfl) hinternal hmeta⟩
  | null | bool | num | str | arr => cases htype

end Normalize

/-! The round trip. -/

/-- The field that a custom tool's own wrapper has. -/
def customField (name : String) : String :=
  if isApplyPatch name then "patch" else "input"

/-- The free-form body of a call, as it is replayed. -/
def replayedText (name text : String) : String :=
  if isApplyPatch name then normalizePatchDelimiters text else text

/-- What the arguments of a call and of its replay have in common.  A name that
is declared twice is the tool search's first, then the custom tool's. -/
structure Replays (crates : Crates) (request : Json)
    (name arguments replayed : String) : Prop where
  function : ¬ (DeclaresSearch request ∧ name = "tool_search") →
    ¬ DeclaresCustom request name → replayed = arguments
  custom : ¬ (DeclaresSearch request ∧ name = "tool_search") →
    DeclaresCustom request name → ∀ field ∈ ["input", "patch"], ∀ text,
      crates.fromStr arguments = some (.obj [(field, .str text)]) →
      crates.fromStr replayed =
        some (.obj [(customField name, .str (replayedText name text))])
  search : DeclaresSearch request → name = "tool_search" → ∀ fields,
    crates.fromStr arguments = some (.obj fields) →
      crates.fromStr replayed = crates.fromStr arguments

section Replay

variable {crates : Crates} {name arguments : String} {call callId : Json}

end Replay

/-! A custom tool that is called with the field of the other one. -/

namespace OtherField

def opening (field : String) : List Char :=
  "\x7b\"".toList ++ field.toList ++ "\":\"".toList

def closing : List Char := "\"\x7d".toList

/-- Objects of one text, as far as the text needs no escapes. -/
def crates : Crates where
  fromStr text := ["input", "patch"].findSome? fun field =>
    if (opening field).isPrefixOf text.toList then
      some (.obj [(field, .str (String.ofList
        ((text.toList.drop (opening field).length).dropLast.dropLast)))])
    else none
  toStr value :=
    match value with
    | .obj [(field, .str text)] =>
      String.ofList (opening field ++ text.toList ++ closing)
    | _ => "null"
  sha256 _ := []

def arguments : String := "\x7b\"patch\":\"x\"\x7d"

/-- A request with a free-form tool of its own. -/
def request : Json :=
  .obj [("tools", .arr [.obj [("type", .str "custom"), ("name", .str "edit")]])]

def call : Json :=
  .obj [("type", .str "function_call"), ("name", .str "edit"),
    ("call_id", .str "call_1"), ("arguments", .str arguments)]

end OtherField

end Vellum.Proxy
