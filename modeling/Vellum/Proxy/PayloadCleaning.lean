/-
What is taken out of a third-party payload before its event is handled
(`vellum-proxy-runtime/src/streaming.rs`): control tokens of the provider in
texts, and opaque or raw reasoning in reasoning objects.  Both walk the whole
value; what they do to one field of an object is said here once.
-/
import Vellum.Proxy.ChatStream

namespace Vellum.Proxy

open List Json

/-- Collapse a line that repeats the one before it; short lines stay. -/
def collapseReplayLines : Option (List Char) → List (List Char) → List Char
  | _, [] => []
  | previous, segment :: rest =>
    let line := (segment.reverse.dropWhile
      (fun c => c = '\r' || c = '\n')).reverse
    let normalized := Text.trim line
    let replayed := 8 ≤ normalized.length && previous = some normalized
    (if replayed then [] else segment) ++
      collapseReplayLines
        (if normalized = [] then previous else some normalized) rest

def collapseAdjacentProviderReplayLines (text : List Char) : List Char :=
  collapseReplayLines none (Text.splitInclusive [] text)

def controlTokens : List String := ["<|eos|>", "<|endoftext|>", "<|im_end|>"]

/-- The text without the control tokens, taken out one kind after another. -/
def stripProviderControlTokensFromText (collapse : Bool) (text : String) :
    String :=
  let cleaned := controlTokens.foldl
    (fun cleaned token => Text.remove token.toList cleaned) text.toList
  String.ofList
    (if collapse then collapseAdjacentProviderReplayLines cleaned
      else cleaned)

/-- A string without control tokens; other values stay. -/
def stripString (collapse : Bool) : Json → Json
  | .str text => .str (stripProviderControlTokensFromText collapse text)
  | value => value

/-- An object that is a text event or a text item loses the tokens of its
texts. -/
def stripObject (collapse : Bool) (object : Json) : Json :=
  match (object.get "type").bind Json.asStr with
  | some kind =>
    if kind = "response.output_text.delta" ∨
        kind = "response.output_text.done" then
      (object.modify "delta" (stripString collapse)).modify "text"
        (stripString collapse)
    else if kind = "output_text" then
      object.modify "text" (stripString collapse)
    else object
  | none => object

mutual

/-- `strip_provider_control_tokens_with_options`.  Stripping the children
first makes no difference to the strings of the object itself. -/
def stripProviderControlTokens (collapse : Bool) : Json → Json
  | .obj fields => stripObject collapse (.obj (stripFields collapse fields))
  | .arr items => .arr (stripItems collapse items)
  | value => value

def stripItems (collapse : Bool) : List Json → List Json
  | [] => []
  | item :: rest =>
    stripProviderControlTokens collapse item :: stripItems collapse rest

def stripFields (collapse : Bool) :
    List (String × Json) → List (String × Json)
  | [] => []
  | (name, value) :: rest =>
    (name, stripProviderControlTokens collapse value) ::
      stripFields collapse rest

end

/-- Whether a list of content or summary parts holds text to see. -/
def hasVisiblePart (parts : Option Json) : Bool :=
  ((parts.bind Json.asArr).getD []).any fun part =>
    ((part.get "text").bind Json.asStr).any fun text => !isBlank text

/-- What a reasoning object loses and gets; the decisions are made on the
object as it arrived (`source`). -/
def readableObject (source : Json) (fields : List (String × Json)) :
    List (String × Json) :=
  let edited :=
    if (source.get "type").bind Json.asStr = some "reasoning" then
      let readable := ((((source.get "reasoning_content").or
        (source.get "content")).bind Json.asStr).map fun text =>
          Text.trim text.toList).filter (· ≠ [])
      let summarized :=
        match hasVisiblePart (source.get "summary"), readable with
        | false, some text =>
          Json.insertField "summary"
            (.arr [StreamEvent.summaryPart (String.ofList text)]) fields
        | _, _ => fields
      Json.removeField "content"
        (Json.removeField "encrypted_content" summarized)
    else fields
  Json.removeField "reasoning_content" edited

mutual

/-- `normalize_third_party_readable_reasoning`.  The summary that is put in
has nothing to normalize, so the children can be done first. -/
def normalizeReadableReasoning : Json → Json
  | .obj fields => .obj (readableObject (.obj fields) (readableFields fields))
  | .arr items => .arr (readableItems items)
  | value => value

def readableItems : List Json → List Json
  | [] => []
  | item :: rest => normalizeReadableReasoning item :: readableItems rest

def readableFields : List (String × Json) → List (String × Json)
  | [] => []
  | (name, value) :: rest =>
    (name, normalizeReadableReasoning value) :: readableFields rest

end

variable (collapse : Bool) (fields : List (String × Json))

/-- Stripping an object changes no field name. -/
theorem stripObject_obj :
    ∃ stripped, stripObject collapse (.obj fields) = .obj stripped ∧
      stripped.map Prod.fst = fields.map Prod.fst := by
  rw [stripObject]
  split
  · split
    · obtain ⟨first, hfirst, hnames⟩ :=
        modify_obj "delta" (stripString collapse) fields
      obtain ⟨second, hsecond, hnames'⟩ :=
        modify_obj "text" (stripString collapse) first
      exact ⟨second, by rw [hfirst, hsecond], hnames'.trans hnames⟩
    · split
      · exact modify_obj "text" (stripString collapse) fields
      · exact ⟨fields, rfl, rfl⟩
  · exact ⟨fields, rfl, rfl⟩

/-- Cleaning a value that is neither a list nor an object changes nothing, and
a list or an object stays one. -/
theorem asStr_strip (value : Json) :
    (stripProviderControlTokens collapse
      (normalizeReadableReasoning value)).asStr = value.asStr := by
  cases value with
  | obj fields =>
    rw [normalizeReadableReasoning, stripProviderControlTokens]
    obtain ⟨stripped, hstripped, -⟩ := stripObject_obj collapse
      (stripFields collapse (readableObject (.obj fields)
        (readableFields fields)))
    rw [hstripped]
    rfl
  | arr items =>
    rw [normalizeReadableReasoning, stripProviderControlTokens]
    rfl
  | null | bool | num | str => rfl

theorem asU64_strip (value : Json) :
    (stripProviderControlTokens collapse
      (normalizeReadableReasoning value)).asU64 = value.asU64 := by
  cases value with
  | obj fields =>
    rw [normalizeReadableReasoning, stripProviderControlTokens]
    obtain ⟨stripped, hstripped, -⟩ := stripObject_obj collapse
      (stripFields collapse (readableObject (.obj fields)
        (readableFields fields)))
    rw [hstripped]
    rfl
  | arr items =>
    rw [normalizeReadableReasoning, stripProviderControlTokens]
    rfl
  | null | bool | num | str => rfl

theorem get_stripFields (key : String) :
    (Json.obj (stripFields collapse fields)).get key =
      ((Json.obj fields).get key).map
        (stripProviderControlTokens collapse) := by
  induction fields with
  | nil =>
    rw [stripFields]
    rfl
  | cons field rest ih =>
    obtain ⟨name, value⟩ := field
    rw [stripFields, get_cons, get_cons]
    split
    · rfl
    · exact ih

theorem get_readableFields (key : String) :
    (Json.obj (readableFields fields)).get key =
      ((Json.obj fields).get key).map normalizeReadableReasoning := by
  induction fields with
  | nil =>
    rw [readableFields]
    rfl
  | cons field rest ih =>
    obtain ⟨name, value⟩ := field
    rw [readableFields, get_cons, get_cons]
    split
    · rfl
    · exact ih

theorem map_fst_readableFields :
    (readableFields fields).map Prod.fst = fields.map Prod.fst := by
  induction fields with
  | nil => rw [readableFields]
  | cons field rest ih =>
    obtain ⟨name, value⟩ := field
    rw [readableFields, map_cons, map_cons, ih]

/-- The names a reasoning object loses or gets. -/
def reasoningNames : List String :=
  ["summary", "content", "encrypted_content", "reasoning_content"]

/-- The fields of an object that reasoning has nothing to do with. -/
theorem get_normalizeReadable {fields : List (String × Json)}
    (hnodup : (fields.map Prod.fst).Nodup) {key : String}
    (hkey : key ∉ reasoningNames) :
    (normalizeReadableReasoning (.obj fields)).get key =
      ((Json.obj fields).get key).map normalizeReadableReasoning := by
  simp only [reasoningNames, mem_cons, not_mem_nil, or_false,
    not_or] at hkey
  obtain ⟨hsummary, hcontent, hencrypted, hreasoning⟩ := hkey
  have hfields : ((readableFields fields).map Prod.fst).Nodup := by
    rw [map_fst_readableFields]
    exact hnodup
  rw [normalizeReadableReasoning, ← get_readableFields]
  simp only [readableObject]
  split
  · split
    · have hsummarized := nodup_insertField hfields "summary"
      rw [get_removeField (nodup_removeField
          (nodup_removeField (hsummarized _) _) _) hreasoning,
        get_removeField (nodup_removeField (hsummarized _) _)
          hcontent,
        get_removeField (hsummarized _) hencrypted,
        get_insertField, if_neg hsummary]
    · rw [get_removeField (nodup_removeField
          (nodup_removeField hfields _) _) hreasoning,
        get_removeField (nodup_removeField hfields _) hcontent,
        get_removeField hfields hencrypted]
  · rw [get_removeField hfields hreasoning]

theorem tidy_normalizeReadable {value : Json} (htidy : value.Tidy) :
    (normalizeReadableReasoning value).Tidy := by
  cases value with
  | obj fields =>
    have hfields : ((readableFields fields).map Prod.fst).Nodup := by
      rw [map_fst_readableFields]
      exact htidy fields rfl
    intro readable hreadable
    rw [normalizeReadableReasoning] at hreadable
    rw [← Json.obj.inj hreadable]
    simp only [readableObject]
    apply nodup_removeField
    split
    · apply nodup_removeField
      apply nodup_removeField
      split
      · exact nodup_insertField hfields _ _
      · exact hfields
    · exact hfields
  | arr items =>
    intro fields hfields
    rw [normalizeReadableReasoning] at hfields
    cases hfields
  | null | bool | num | str => exact htidy

/-- The fields of an object that holds no text of its own under this name. -/
theorem get_stripObject (object : Json) {key : String} (hdelta : key ≠ "delta")
    (htext : key ≠ "text") :
    (stripObject collapse object).get key = object.get key := by
  rw [stripObject]
  split
  · split
    · rw [get_modify, if_neg htext, get_modify, if_neg hdelta]
    · split
      · rw [get_modify, if_neg htext]
      · rfl
  · rfl

theorem map_fst_stripFields :
    (stripFields collapse fields).map Prod.fst = fields.map Prod.fst := by
  induction fields with
  | nil => rw [stripFields]
  | cons field rest ih =>
    obtain ⟨name, value⟩ := field
    rw [stripFields, map_cons, map_cons, ih]

theorem tidy_strip {value : Json} (htidy : value.Tidy) :
    (stripProviderControlTokens collapse value).Tidy := by
  cases value with
  | obj fields =>
    have hfields : ((stripFields collapse fields).map Prod.fst).Nodup := by
      rw [map_fst_stripFields]
      exact htidy fields rfl
    obtain ⟨stripped, hstripped, hnames⟩ := stripObject_obj collapse
      (stripFields collapse fields)
    intro result hresult
    rw [stripProviderControlTokens, hstripped] at hresult
    rw [← Json.obj.inj hresult, hnames]
    exact hfields
  | arr items =>
    intro fields hfields
    rw [stripProviderControlTokens] at hfields
    cases hfields
  | null | bool | num | str => exact htidy

end Vellum.Proxy
