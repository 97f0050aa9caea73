/-
What the model is shown of a search (`search_loop.rs`, `bounded_search_output`).
The fields of a result are cut by characters and the payload is held to a
number of bytes by dropping results from the end.  The last result is never
dropped: its fields are cut once more, and the loop ends because a character
takes at most six bytes in a JSON text.
-/
import Vellum.Library.JsonGrammar
import Vellum.Proxy.CompactionChunks
import Vellum.Proxy.SearchLoop

namespace Vellum.Proxy

open List

open Utf8Slice (byteLen)

structure SearchResult where
  url : Option String
  title : Option String
  snippet : Option String

structure SearchResponse where
  results : List SearchResult

def maxResults : Nat := 8

def maxSnippetChars : Nat := 280

def maxTitleChars : Nat := 300

def maxUrlChars : Nat := 1024

def maxOutputBytes : Nat := 4000

def takeChars (value : String) (limit : Nat) : String :=
  String.ofList (value.toList.take limit)

def boundedResult (result : SearchResult) : Json :=
  .obj [
    ("url", Json.ofOption (result.url.map (takeChars · maxUrlChars))),
    ("title", Json.ofOption (result.title.map (takeChars · maxTitleChars))),
    ("snippet",
      Json.ofOption (result.snippet.map (takeChars · maxSnippetChars)))]

def boundJsonString (key : String) (limit : Nat) (value : Json) : Json :=
  match (value.get key).bind Json.asStr with
  | none => value
  | some text => setField key (.str (takeChars text limit)) value

/-- The last result, cut once more. -/
def reboundResult (result : Json) : Json :=
  boundJsonString "snippet" 160
    (boundJsonString "title" 160 (boundJsonString "url" 256 result))

def searchPayload (results : List Json) (truncated : Bool) : Json :=
  .obj [("results", .arr results), ("encrypted_output", .null),
    ("truncated", .bool truncated)]

/-- The loop, for at most `fuel` rounds. -/
def boundLoop (floats : JsonText.FloatText) :
    Nat → List Json → Bool → Option (List Char)
  | 0, _, _ => none
  | fuel + 1, results, truncated =>
    let payload := JsonText.text floats (searchPayload results truncated)
    if byteLen payload ≤ maxOutputBytes then some payload
    else if 1 < results.length then boundLoop floats fuel results.dropLast true
    else
      match results with
      | result :: rest =>
        boundLoop floats fuel (reboundResult result :: rest) true
      | [] => some (JsonText.text floats (searchPayload [] true))

def boundedSearchOutput (floats : JsonText.FloatText) (fuel : Nat)
    (response : SearchResponse) : Option (List Char) :=
  let results := (response.results.take maxResults).map boundedResult
  boundLoop floats fuel results
    (decide (results.length < response.results.length))

/-- How many characters of each field are kept. -/
structure FieldLimits where
  url : Nat
  title : Nat
  snippet : Nat

def ordinaryLimits : FieldLimits :=
  ⟨maxUrlChars, maxTitleChars, maxSnippetChars⟩

def tightLimits : FieldLimits := ⟨256, 160, 160⟩

/-- A result with each of its fields cut. -/
def truncatedResult (limits : FieldLimits) (result : SearchResult) : Json :=
  .obj [
    ("url", Json.ofOption (result.url.map (takeChars · limits.url))),
    ("title", Json.ofOption (result.title.map (takeChars · limits.title))),
    ("snippet",
      Json.ofOption (result.snippet.map (takeChars · limits.snippet)))]

theorem takeChars_takeChars (value : String) (first second : Nat) :
    takeChars (takeChars value first) second =
      takeChars value (min second first) := by
  rw [takeChars, takeChars, takeChars, String.toList_ofList, take_take]

theorem reboundResult_boundedResult (result : SearchResult) :
    reboundResult (boundedResult result) =
      truncatedResult tightLimits result := by
  obtain ⟨url, title, snippet⟩ := result
  cases url <;> cases title <;> cases snippet <;>
    simp [reboundResult, boundJsonString, boundedResult, truncatedResult,
      Json.get, Json.asStr, Json.ofOption, setField, Json.insertField,
      takeChars_takeChars, tightLimits, maxUrlChars, maxTitleChars,
      maxSnippetChars]

section Bytes

variable (floats : JsonText.FloatText)

theorem utf8Size_hexDigit : ∀ n < 16, (JsonText.hexDigit n).utf8Size = 1 := by
  decide

/-- A character takes at most six bytes in a JSON text: `\u00` and two digits
for a control character. -/
theorem byteLen_escape_le (c : Char) : byteLen (JsonText.escape c) ≤ 6 := by
  rw [JsonText.escape]
  split_ifs with hquote hslash hb ht hn hf hr hcontrol
  any_goals decide
  · have hhigh := utf8Size_hexDigit (c.toNat / 16) (by omega)
    have hlow := utf8Size_hexDigit (c.toNat % 16) (by omega)
    have hfront : byteLen ['\\', 'u', '0', '0'] = 4 := by decide
    change byteLen (['\\', 'u', '0', '0'] ++ ([_] ++ [_])) ≤ 6
    rw [Utf8Slice.byteLen_append, Utf8Slice.byteLen_append, hfront,
      Utf8Slice.byteLen_singleton, Utf8Slice.byteLen_singleton, hhigh, hlow]
  · rw [Utf8Slice.byteLen_singleton]
    exact le_trans c.utf8Size_le_four (by decide)

theorem escapedBytes_le (text : List Char) :
    escapedBytes text ≤ 6 * text.length := by
  induction text with
  | nil => exact Nat.le_refl 0
  | cons c rest ih =>
    have hsplit := escapedBytes_append [c] rest
    have hchar : escapedBytes [c] ≤ 6 := by
      rw [escapedBytes, flatMap_singleton]
      exact byteLen_escape_le c
    rw [singleton_append] at hsplit
    rw [hsplit, length_cons]
    omega

theorem byteLen_field_le (field : Option String) (limit : Nat) :
    byteLen (JsonText.text floats
      (Json.ofOption (field.map (takeChars · limit)))) ≤ 6 * limit + 4 := by
  cases field with
  | none =>
    have hnull : byteLen "null".toList = 4 := by decide
    change byteLen "null".toList ≤ _
    rw [hnull]
    exact Nat.le_add_left 4 _
  | some value =>
    have hlength : (value.toList.take limit).length ≤ limit :=
      length_take_le limit _
    have hbytes := escapedBytes_le (value.toList.take limit)
    change byteLen (JsonText.quote (takeChars value limit)) ≤ _
    rw [byteLen_quote, takeChars, String.toList_ofList]
    omega

theorem byteLen_truncatedResult_le (limits : FieldLimits)
    (result : SearchResult) :
    byteLen (JsonText.text floats (truncatedResult limits result)) ≤
      6 * (limits.url + limits.title + limits.snippet) + 42 := by
  have hurl : byteLen (['\x7b'] ++ JsonText.quote "url" ++ [':']) = 7 := by
    decide
  have htitle : byteLen ([','] ++ JsonText.quote "title" ++ [':']) = 9 := by
    decide
  have hsnippet : byteLen ([','] ++ JsonText.quote "snippet" ++ [':']) = 11 := by
    decide
  have hback : byteLen ['\x7d'] = 1 := by decide
  have htext : JsonText.text floats (truncatedResult limits result) =
      (['\x7b'] ++ JsonText.quote "url" ++ [':']) ++
      JsonText.text floats
        (Json.ofOption (result.url.map (takeChars · limits.url))) ++
      ([','] ++ JsonText.quote "title" ++ [':']) ++
      JsonText.text floats
        (Json.ofOption (result.title.map (takeChars · limits.title))) ++
      ([','] ++ JsonText.quote "snippet" ++ [':']) ++
      JsonText.text floats
        (Json.ofOption (result.snippet.map (takeChars · limits.snippet))) ++
      ['\x7d'] := by
    simp [truncatedResult, JsonText.text, JsonText.fieldTexts,
      JsonText.commaJoin]
  have hfirst := byteLen_field_le floats result.url limits.url
  have hsecond := byteLen_field_le floats result.title limits.title
  have hthird := byteLen_field_le floats result.snippet limits.snippet
  rw [htext]
  simp only [Utf8Slice.byteLen_append _ (['\x7d']),
    Utf8Slice.byteLen_append _ (JsonText.text floats _),
    Utf8Slice.byteLen_append _ ([','] ++ _ ++ _)]
  omega

theorem byteLen_searchPayload_le (results : List Json) (truncated : Bool) :
    byteLen (JsonText.text floats (searchPayload results truncated)) ≤
      byteLen (JsonText.commaJoin (JsonText.itemTexts floats results)) +
        56 := by
  have hfront : byteLen (['\x7b'] ++ JsonText.quote "results" ++
      [':', '[']) = 12 := by decide
  have hmiddle : byteLen ([']', ','] ++ JsonText.quote "encrypted_output" ++
      [':'] ++ "null".toList ++ [','] ++ JsonText.quote "truncated" ++
      [':']) = 38 := by decide
  have hback : byteLen ['\x7d'] = 1 := by decide
  have hmark : byteLen (JsonText.text floats (.bool truncated)) ≤ 5 := by
    cases truncated with
    | true =>
      change byteLen "true".toList ≤ 5
      decide
    | false =>
      change byteLen "false".toList ≤ 5
      decide
  have htext : JsonText.text floats (searchPayload results truncated) =
      (['\x7b'] ++ JsonText.quote "results" ++ [':', '[']) ++
      JsonText.commaJoin (JsonText.itemTexts floats results) ++
      ([']', ','] ++ JsonText.quote "encrypted_output" ++ [':'] ++
        "null".toList ++ [','] ++ JsonText.quote "truncated" ++ [':']) ++
      JsonText.text floats (.bool truncated) ++ ['\x7d'] := by
    cases truncated <;>
      simp [searchPayload, JsonText.text, JsonText.fieldTexts,
        JsonText.commaJoin]
  rw [htext, Utf8Slice.byteLen_append, Utf8Slice.byteLen_append,
    Utf8Slice.byteLen_append, Utf8Slice.byteLen_append, hfront, hmiddle,
    hback]
  omega

/-- A result that has been cut twice always fits. -/
theorem tight_fits (result : SearchResult) (truncated : Bool) :
    byteLen (JsonText.text floats
      (searchPayload [truncatedResult tightLimits result] truncated)) ≤
        maxOutputBytes := by
  have hpayload := byteLen_searchPayload_le floats
    [truncatedResult tightLimits result] truncated
  have hresult := byteLen_truncatedResult_le floats tightLimits result
  have hlimits : tightLimits.url + tightLimits.title + tightLimits.snippet =
      576 := rfl
  rw [hlimits] at hresult
  rw [JsonText.itemTexts, JsonText.itemTexts, JsonText.commaJoin] at hpayload
  rw [maxOutputBytes]
  omega

theorem nothing_fits (truncated : Bool) :
    byteLen (JsonText.text floats (searchPayload [] truncated)) ≤
      maxOutputBytes := by
  have hpayload := byteLen_searchPayload_le floats [] truncated
  have henvelope : byteLen (JsonText.commaJoin []) + 56 ≤ maxOutputBytes := by
    decide
  rw [JsonText.itemTexts] at hpayload
  exact le_trans hpayload henvelope

end Bytes

/-- The results of `kept`, under one of the two sets of limits. -/
structure ShownResults (floats : JsonText.FloatText)
    (kept : List SearchResult) (shown : List SearchResult)
    (truncated : Bool) (output : List Char) : Prop where
  limits : ∃ limits ∈ [ordinaryLimits, tightLimits], output =
    JsonText.text floats
      (searchPayload (shown.map (truncatedResult limits)) truncated)
  fits : byteLen output ≤ maxOutputBytes
  front : shown <+: kept
  nonempty : kept ≠ [] → shown ≠ []

section Loop

variable (floats : JsonText.FloatText)

theorem boundLoop_of_fits {results : List Json} {truncated : Bool}
    (hfits : byteLen (JsonText.text floats (searchPayload results truncated)) ≤
      maxOutputBytes) (fuel : Nat) :
    boundLoop floats (fuel + 1) results truncated =
      some (JsonText.text floats (searchPayload results truncated)) := by
  rw [boundLoop.eq_def]
  exact if_pos hfits

theorem boundLoop_drop {front : List Json} {last : Json} {truncated : Bool}
    (hover : ¬ byteLen (JsonText.text floats
      (searchPayload (front ++ [last]) truncated)) ≤ maxOutputBytes)
    (hfront : front ≠ []) (fuel : Nat) :
    boundLoop floats (fuel + 1) (front ++ [last]) truncated =
      boundLoop floats fuel front true := by
  have hmany : 1 < (front ++ [last]).length := by
    have hpos := length_pos_of_ne_nil hfront
    rw [length_append, length_singleton]
    omega
  rw [boundLoop.eq_def]
  simp only [if_neg hover, if_pos hmany, dropLast_concat]

/-- The round that cuts the last result once more. -/
theorem boundLoop_rebound {result : Json} {truncated : Bool}
    (hover : ¬ byteLen (JsonText.text floats
      (searchPayload [result] truncated)) ≤ maxOutputBytes) (fuel : Nat) :
    boundLoop floats (fuel + 1) [result] truncated =
      boundLoop floats fuel [reboundResult result] true := by
  have hone : ¬ 1 < [result].length := Nat.lt_irrefl 1
  rw [boundLoop.eq_def]
  simp only [if_neg hover, if_neg hone]

/-- The loop ends within one round more than there are results. -/
theorem boundLoop_shows (kept : List SearchResult) (truncated : Bool) :
    ∃ output shown marked,
      (∀ fuel, kept.length + 1 ≤ fuel →
        boundLoop floats fuel (kept.map boundedResult) truncated =
          some output) ∧
      ShownResults floats kept shown marked output ∧
      (marked = false → truncated = false ∧ shown = kept) := by
  induction kept using reverseRecOn generalizing truncated with
  | nil =>
    refine ⟨_, [], truncated, ?_, ⟨⟨ordinaryLimits, mem_cons_self, rfl⟩,
      nothing_fits floats truncated, prefix_rfl, fun hne => hne⟩, ?_⟩
    · intro fuel hfuel
      obtain ⟨fuel, rfl⟩ := Nat.exists_eq_add_of_le' hfuel
      exact boundLoop_of_fits floats (nothing_fits floats truncated) fuel
    · intro hmarked
      exact ⟨hmarked, rfl⟩
  | append_singleton front last ih =>
    by_cases hfits : byteLen (JsonText.text floats
        (searchPayload ((front ++ [last]).map boundedResult) truncated)) ≤
          maxOutputBytes
    · refine ⟨_, front ++ [last], truncated, ?_,
        ⟨⟨ordinaryLimits, mem_cons_self, rfl⟩, hfits, prefix_rfl,
          fun hne => hne⟩, ?_⟩
      · intro fuel hfuel
        obtain ⟨fuel, rfl⟩ := Nat.exists_eq_add_of_le'
          (le_trans (Nat.le_add_left 1 _) hfuel)
        exact boundLoop_of_fits floats hfits fuel
      · intro hmarked
        exact ⟨hmarked, rfl⟩
    · by_cases hfront : front = []
      · -- a single result is cut again, and then fits
        subst hfront
        have htight := tight_fits floats last true
        refine ⟨_, [last], true, ?_,
          ⟨⟨tightLimits, mem_cons_of_mem _ mem_cons_self, rfl⟩,
            htight, prefix_rfl, fun hne => hne⟩, ?_⟩
        · intro fuel hfuel
          obtain ⟨fuel, rfl⟩ := Nat.exists_eq_add_of_le' hfuel
          change boundLoop floats (fuel + 1 + 1) [boundedResult last] _ = _
          rw [boundLoop_rebound floats hfits, reboundResult_boundedResult]
          exact boundLoop_of_fits floats htight fuel
        · intro hmarked
          cases hmarked
      · obtain ⟨output, shown, marked, hends, hshown, hmarked⟩ := ih true
        refine ⟨output, shown, marked, ?_, ⟨hshown.limits, hshown.fits,
          hshown.front.trans (prefix_append front [last]), ?_⟩, ?_⟩
        · intro fuel hfuel
          rw [length_append, length_singleton] at hfuel
          obtain ⟨fuel, rfl⟩ := Nat.exists_eq_add_of_le'
            (le_trans (Nat.le_add_left 1 _) hfuel)
          rw [map_append] at hfits ⊢
          have hmapped : front.map boundedResult ≠ [] := by
            rwa [Ne, map_eq_nil_iff]
          rw [map_singleton] at hfits ⊢
          rw [boundLoop_drop floats hfits hmapped]
          exact hends fuel (by omega)
        · intro _
          exact hshown.nonempty hfront
        · intro hfalse
          cases (hmarked hfalse).1

end Loop

theorem numbers_ofOption (field : Option String) :
    JsonGrammar.numbers (Json.ofOption field) = [] := by
  cases field <;> rfl

theorem numbers_searchPayload (shown : List SearchResult)
    (limits : FieldLimits) (truncated : Bool) :
    JsonGrammar.numbers (searchPayload
      (shown.map (truncatedResult limits)) truncated) = [] := by
  have hitems : JsonGrammar.numbersOfItems
      (shown.map (truncatedResult limits)) = [] := by
    induction shown with
    | nil => rfl
    | cons result rest ih =>
      rw [map_cons, JsonGrammar.numbersOfItems, ih]
      simp [truncatedResult, JsonGrammar.numbers,
        JsonGrammar.numbersOfFields, numbers_ofOption]
  simp [searchPayload, JsonGrammar.numbers, JsonGrammar.numbersOfFields,
    hitems]

/-- What is claimed of an output.  By `JsonText.text_inj` it is the text of one
payload only. -/
structure BoundedOutput (floats : JsonText.FloatText)
    (response : SearchResponse) (output : List Char) : Prop where
  fits : byteLen output ≤ maxOutputBytes
  valid : JsonGrammar.Value output
  shows : ∃ shown limits truncated,
    output = JsonText.text floats
      (searchPayload (shown.map (truncatedResult limits)) truncated) ∧
    limits ∈ [ordinaryLimits, tightLimits] ∧
    shown <+: response.results ∧
    (response.results ≠ [] → shown ≠ []) ∧
    (truncated = false → shown = response.results)

/-- The loop ends, and its output is bounded. -/
theorem boundedSearchOutput_ends (floats : JsonText.FloatText)
    (response : SearchResponse) :
    ∃ output, (∀ fuel, maxResults + 1 ≤ fuel →
        boundedSearchOutput floats fuel response = some output) ∧
      BoundedOutput floats response output := by
  have hlength := length_take_le maxResults response.results
  obtain ⟨output, shown, marked, hends, hshown, hmarked⟩ :=
    boundLoop_shows floats (response.results.take maxResults)
      (decide (((response.results.take maxResults).map boundedResult).length <
        response.results.length))
  obtain ⟨limits, hlimits, htext⟩ := hshown.limits
  have hfirst : response.results.take maxResults <+: response.results :=
    take_prefix maxResults response.results
  refine ⟨output, ?_, hshown.fits, ?_, shown, limits, marked, htext, hlimits,
    hshown.front.trans hfirst, ?_, ?_⟩
  · intro fuel hfuel
    exact hends fuel (by omega)
  · rw [htext]
    refine JsonGrammar.value_text floats _ ?_
    rw [numbers_searchPayload]
    intro number hnumber
    exact absurd hnumber not_mem_nil
  · intro hne
    refine hshown.nonempty ?_
    rw [Ne, take_eq_nil_iff]
    exact not_or.mpr ⟨by decide, hne⟩
  · intro hfalse
    obtain ⟨hcount, hall⟩ := hmarked hfalse
    rw [decide_eq_false_iff_not, length_map, Nat.not_lt] at hcount
    rw [hall]
    exact take_of_length_le
      (le_trans hcount (length_take_le maxResults response.results))

end Vellum.Proxy
