/-
What stripping leaves of the provider's control tokens (`streaming.rs`).  Each
token is looked for once, in a fixed order, so a token that others break up is
put together when its own turn is over.  The texts for which this does not
happen are those without a remnant of a token, and on these stripping a second
time changes nothing.
-/
import Vellum.Library.Weaving
import Vellum.Proxy.PayloadCleaning

namespace Vellum.Proxy

open List Json

def tokenWords : List (List Char) := controlTokens.map String.toList

theorem tokenWords_framed :
    ∀ token ∈ tokenWords, Text.Framed '<' '>' token := by
  have hends : ∀ token ∈ tokenWords,
      token = '<' :: token.tail ∧ '<' ∉ token.tail ∧
        token = token.dropLast ++ ['>'] ∧ '>' ∉ token.dropLast := by
    decide
  intro token htoken
  obtain ⟨hstarts, hopen, hcloses, hclosed⟩ := hends token htoken
  exact ⟨by decide, ⟨_, hstarts, hopen⟩, ⟨_, hcloses, hclosed⟩⟩

theorem tokenWords_nodup : tokenWords.Nodup := by decide

/-- The text holds one of the control tokens. -/
def HoldsToken (text : String) : Prop :=
  ∃ token ∈ tokenWords, token <:+: text.toList

/-- The text holds a word that becomes a control token. -/
def HoldsRemnant (text : String) : Prop :=
  ∃ token ∈ tokenWords, ∃ word, Text.Remnant tokenWords token word ∧
    word <:+: text.toList

theorem strippedText_eq (text : String) :
    stripProviderControlTokensFromText false text =
      String.ofList (Text.removeAll tokenWords text.toList) := by
  rw [stripProviderControlTokensFromText, Text.removeAll, tokenWords,
    foldl_map, if_neg Bool.false_ne_true]

theorem holdsToken_strippedText_iff (text : String) :
    HoldsToken (stripProviderControlTokensFromText false text) ↔
      HoldsRemnant text := by
  rw [HoldsToken, HoldsRemnant, strippedText_eq, String.toList_ofList]
  refine exists_congr fun token => and_congr_right fun htoken => ?_
  exact Text.factor_removeAll_iff (tokenWords_framed token htoken)
    tokenWords_framed tokenWords_nodup text.toList

theorem strippedText_of_clean {text : String} (hclean : ¬ HoldsToken text) :
    stripProviderControlTokensFromText false text = text := by
  have hnot : ∀ token ∈ tokenWords, ¬ token <:+: text.toList :=
    fun token htoken hfactor => hclean ⟨token, htoken, hfactor⟩
  rw [strippedText_eq, Text.removeAll_eq_self
    (fun token htoken => (tokenWords_framed token htoken).ne_nil) hnot,
    String.ofList_toList]

/-- The kinds of output text: the item and its events. -/
def outputTextKinds : List String :=
  ["output_text", "response.output_text.delta", "response.output_text.done"]

/-- Whether the string under this name is stripped in an object of this
kind. -/
def Strips (kind name : String) : Prop :=
  (kind = "response.output_text.delta" ∨ kind = "response.output_text.done") ∧
      (name = "delta" ∨ name = "text") ∨
    kind = "output_text" ∧ name = "text"

instance (kind name : String) : Decidable (Strips kind name) :=
  inferInstanceAs (Decidable (_ ∨ _))

/-- What holds of the `text` and `delta` strings of an output text. -/
def OutputTexts (holds : String → String → String → Prop) (object : Json) :
    Prop :=
  ∀ kind ∈ outputTextKinds, (object.get "type").bind Json.asStr = some kind →
    ∀ name ∈ ["text", "delta"], ∀ text, object.get name = some (.str text) →
      holds kind name text

/-- No string holds a control token. -/
def CleanTexts : Json → Prop :=
  OutputTexts fun _ _ text => ¬ HoldsToken text

/-- No string that is stripped holds a remnant of a control token, and no
other one a control token. -/
def UnbrokenTexts : Json → Prop :=
  OutputTexts fun kind name text =>
    if Strips kind name then ¬ HoldsRemnant text else ¬ HoldsToken text

theorem get_stripObject_of_kind {object : Json} {kind : String}
    (hkind : (object.get "type").bind Json.asStr = some kind) (name : String) :
    (stripObject false object).get name =
      if Strips kind name then (object.get name).map (stripString false)
      else object.get name := by
  rw [stripObject, hkind]
  by_cases hevent : kind = "response.output_text.delta" ∨
      kind = "response.output_text.done"
  · have hitem : kind ≠ "output_text" := by
      rintro rfl
      exact absurd hevent (by decide)
    simp only [Strips, hevent, hitem, true_and, false_and, or_false, if_true]
    rw [get_modify, get_modify]
    by_cases htext : name = "text"
    · have hdelta : name ≠ "delta" := by
        rw [htext]
        decide
      rw [if_pos htext, if_neg hdelta, if_pos (.inr htext)]
    · simp only [htext, or_false, if_false]
  · by_cases hitem : kind = "output_text"
    · simp only [Strips, hevent, false_and, false_or, if_false]
      rw [if_pos hitem, get_modify]
      simp only [hitem, true_and]
    · simp only [Strips, hevent, hitem, false_and, or_false, if_false]

theorem strip_eq_str_iff (value : Json) (text : String) :
    stripProviderControlTokens false value = .str text ↔
      value = .str text := by
  cases value with
  | obj fields =>
    rw [stripProviderControlTokens]
    obtain ⟨stripped, hstripped, -⟩ :=
      stripObject_obj false (stripFields false fields)
    rw [hstripped]
    exact iff_of_false Json.noConfusion Json.noConfusion
  | arr items =>
    rw [stripProviderControlTokens]
    exact iff_of_false Json.noConfusion Json.noConfusion
  | null | bool | num | str =>
    rw [stripProviderControlTokens]
    all_goals exact fun _ h => Json.noConfusion h

theorem stripString_eq_str_iff (value : Json) (stripped : String) :
    stripString false value = .str stripped ↔
      ∃ text, value = .str text ∧
        stripProviderControlTokensFromText false text = stripped := by
  cases value <;> simp [stripString]

theorem asStr_eq_some_iff (value : Json) (text : String) :
    value.asStr = some text ↔ value = .str text := by
  cases value <;> simp [Json.asStr]

/-- The type of an object is what it was. -/
theorem kind_stripFields (fields : List (String × Json)) :
    ((Json.obj (stripFields false fields)).get "type").bind Json.asStr =
      ((Json.obj fields).get "type").bind Json.asStr := by
  rw [get_stripFields, Option.bind_map]
  congr 1
  funext value
  refine Option.ext fun text => ?_
  rw [Function.comp_apply, asStr_eq_some_iff, asStr_eq_some_iff,
    strip_eq_str_iff]

theorem strip_leaf {value : Json} (harr : ∀ items, value ≠ .arr items)
    (hobj : ∀ fields, value ≠ .obj fields) :
    stripProviderControlTokens false value = value := by
  rw [stripProviderControlTokens]
  · exact hobj
  · exact harr

theorem stripItems_eq_map (items : List Json) :
    stripItems false items =
      items.map (stripProviderControlTokens false) := by
  induction items with
  | nil => rw [stripItems, map_nil]
  | cons item rest ih => rw [stripItems, map_cons, ih]

theorem stripFields_eq_map (fields : List (String × Json)) :
    stripFields false fields = fields.map fun field =>
      (field.1, stripProviderControlTokens false field.2) := by
  induction fields with
  | nil => rw [stripFields, map_nil]
  | cons field rest ih =>
    obtain ⟨name, value⟩ := field
    rw [stripFields, map_cons, ih]

/-- The strings of a stripped object come from its strings. -/
theorem get_strip_eq_str_iff {fields : List (String × Json)} {kind : String}
    (hkind : ((Json.obj fields).get "type").bind Json.asStr = some kind)
    (name stripped : String) :
    (stripProviderControlTokens false (.obj fields)).get name =
        some (.str stripped) ↔
      ∃ text, (Json.obj fields).get name = some (.str text) ∧
        (if Strips kind name then stripProviderControlTokensFromText false text
          else text) = stripped := by
  rw [stripProviderControlTokens,
    get_stripObject_of_kind ((kind_stripFields fields).trans hkind),
    get_stripFields]
  by_cases hstrips : Strips kind name
  · rw [if_pos hstrips, Option.map_map, Option.map_eq_some_iff]
    simp only [Function.comp_apply, stripString_eq_str_iff, strip_eq_str_iff,
      hstrips, if_true]
    constructor
    · rintro ⟨value, hget, text, rfl, htext⟩
      exact ⟨text, hget, htext⟩
    · rintro ⟨text, hget, htext⟩
      exact ⟨.str text, hget, text, rfl, htext⟩
  · rw [if_neg hstrips, Option.map_eq_some_iff]
    simp only [strip_eq_str_iff, hstrips, if_false, exists_eq_right]

/-- The texts of a stripped object are clean exactly if its texts are not
broken up. -/
theorem cleanTexts_strip_iff (fields : List (String × Json)) :
    CleanTexts (stripProviderControlTokens false (.obj fields)) ↔
      UnbrokenTexts (.obj fields) := by
  have hstrip (kind name text : String) :
      ¬ HoldsToken (if Strips kind name then
        stripProviderControlTokensFromText false text else text) ↔
      if Strips kind name then ¬ HoldsRemnant text else ¬ HoldsToken text := by
    split
    · rw [holdsToken_strippedText_iff]
    · exact Iff.rfl
  have hkind : ((stripProviderControlTokens false (.obj fields)).get
      "type").bind Json.asStr = ((Json.obj fields).get "type").bind
        Json.asStr := by
    rw [stripProviderControlTokens,
      get_stripObject _ _ (by decide) (by decide), kind_stripFields]
  rw [CleanTexts, UnbrokenTexts, OutputTexts, OutputTexts, hkind]
  refine forall₃_congr fun kind _ hobject => forall₂_congr fun name _ => ?_
  simp only [get_strip_eq_str_iff hobject, ← hstrip]
  constructor
  · exact fun hall text hget => hall _ ⟨text, hget, rfl⟩
  · rintro hall stripped ⟨text, hget, rfl⟩
    exact hall text hget

/-- Stripping changes no object below the strings. -/
theorem everywhere_stripString {holds : Json → Prop} (value : Json) :
    Json.Everywhere holds (stripString false value) ↔
      Json.Everywhere holds value := by
  cases value with
  | str text =>
    rw [stripString, Json.Everywhere, Json.Everywhere]
    all_goals exact fun _ h => Json.noConfusion h
  | null | bool | num | arr | obj => exact Iff.rfl

theorem everywhereBelow_stripObject {holds : Json → Prop} (object : Json) :
    Json.EverywhereBelow holds (stripObject false object) ↔
      Json.EverywhereBelow holds object := by
  have hmodify (name : String) (value : Json) :
      Json.EverywhereBelow holds (value.modify name (stripString false)) ↔
        Json.EverywhereBelow holds value :=
    everywhereBelow_modify everywhere_stripString value
  rw [stripObject]
  split
  · split
    · rw [hmodify, hmodify]
    · split
      · rw [hmodify]
      · exact Iff.rfl
  · exact Iff.rfl

/-- Every string of a stripped value is clean exactly if the value has no
string that is broken up. -/
theorem everywhere_cleanTexts_strip_iff (value : Json) :
    Json.Everywhere CleanTexts (stripProviderControlTokens false value) ↔
      Json.Everywhere UnbrokenTexts value := by
  induction value using Json.nestedInduction with
  | leaf value harr hobj =>
    rw [strip_leaf harr hobj]
    exact iff_of_true (everywhere_leaf harr hobj)
      (everywhere_leaf harr hobj)
  | arr items ih =>
    rw [stripProviderControlTokens, everywhere_arr_iff,
      everywhere_arr_iff, stripItems_eq_map, forall_mem_map]
    exact forall₂_congr ih
  | obj fields ih =>
    obtain ⟨stripped, hstripped, -⟩ :=
      stripObject_obj false (stripFields false fields)
    have hbelow : Json.EverywhereBelow CleanTexts (.obj stripped) ↔
        Json.EverywhereBelow UnbrokenTexts (.obj fields) := by
      rw [← hstripped, everywhereBelow_stripObject,
        everywhereBelow_obj_iff, everywhereBelow_obj_iff,
        stripFields_eq_map, forall_mem_map]
      exact forall₂_congr ih
    have hself := cleanTexts_strip_iff fields
    rw [stripProviderControlTokens, hstripped] at hself ⊢
    rw [everywhere_obj_iff, everywhere_obj_iff, hself, hbelow]

theorem stripObject_of_clean {object : Json} (hclean : CleanTexts object) :
    stripObject false object = object := by
  rw [stripObject]
  split
  · rename_i kind hkind
    have hkept {name : String} (hname : name ∈ ["text", "delta"])
        (houtput : kind ∈ outputTextKinds) :
        object.modify name (stripString false) = object := by
      refine (modify_eq_self_iff name _ object).mpr fun value hget => ?_
      cases value with
      | str text =>
        rw [stripString, strippedText_of_clean
          (hclean kind houtput hkind name hname text hget)]
      | null | bool | num | arr | obj => rfl
    split
    · rename_i hevent
      have houtput : kind ∈ outputTextKinds := by
        rcases hevent with rfl | rfl <;> decide
      rw [hkept (by decide) houtput, hkept (by decide) houtput]
    · split
      · rename_i hitem
        exact hkept (by decide) (hitem ▸ mem_cons_self)
      · rfl
  · rfl

theorem strip_of_clean {value : Json}
    (hclean : Json.Everywhere CleanTexts value) :
    stripProviderControlTokens false value = value := by
  induction value using Json.nestedInduction with
  | leaf value harr hobj => exact strip_leaf harr hobj
  | arr items ih =>
    rw [everywhere_arr_iff] at hclean
    rw [stripProviderControlTokens, stripItems_eq_map,
      map_congr_left fun item hitem => ih item hitem
        (hclean item hitem), map_id']
  | obj fields ih =>
    rw [everywhere_obj_iff, everywhereBelow_obj_iff] at hclean
    have hfields : stripFields false fields = fields := by
      rw [stripFields_eq_map]
      refine (map_congr_left fun field hfield => ?_).trans
        (map_id _)
      rw [ih field hfield (hclean.2 field hfield), id_eq]
    rw [stripProviderControlTokens, hfields, stripObject_of_clean hclean.1]

/-- What is claimed of a value: stripped, no string of an output text holds a
control token, and stripping it again changes nothing. -/
structure ControlTokensGone (value : Json) : Prop where
  clean : Json.Everywhere CleanTexts (stripProviderControlTokens false value)
  settled : stripProviderControlTokens false
      (stripProviderControlTokens false value) =
    stripProviderControlTokens false value

/-- The control tokens are gone exactly if no text of the value is broken
up. -/
theorem control_tokens_gone_iff (value : Json) :
    ControlTokensGone value ↔ Json.Everywhere UnbrokenTexts value := by
  rw [← everywhere_cleanTexts_strip_iff]
  exact ⟨fun hgone => hgone.clean, fun hclean =>
    ⟨hclean, strip_of_clean hclean⟩⟩

/-- A token of the first pass with a token of the second pass in it. -/
def nestedToken : Json :=
  .obj [("type", .str "output_text"), ("text", .str "<|eo<|endoftext|>s|>")]

theorem nested_token_is_assembled : ¬ ∀ value, ControlTokensGone value := by
  intro hall
  have hstrip : stripProviderControlTokens false nestedToken =
      .obj [("type", .str "output_text"), ("text", .str "<|eos|>")] := by
    decide
  have hclean := (hall nestedToken).clean
  rw [hstrip, everywhere_obj_iff] at hclean
  have htoken : HoldsToken "<|eos|>" :=
    ⟨"<|eos|>".toList, mem_cons_self, infix_rfl⟩
  exact hclean.1 "output_text" mem_cons_self rfl "text"
    mem_cons_self "<|eos|>" rfl htoken

end Vellum.Proxy
