/-
Opaque provider state and translated routes.  What a translated route makes of
a request is a function of the request without its `encrypted_content` values:
the scrub takes these fields out before anything else reads the body, apart
from those of messages between agents, which hold plain text.
-/
import Vellum.Library.MaskedField
import Vellum.Proxy.UpstreamRequest

namespace Vellum.Proxy

open List Option

/-- The field that holds the state of a provider. -/
def opaqueKey : String := "encrypted_content"

/-- An input item without the state in it; a message between agents has
none. -/
def blindItem (item : Json) : Json :=
  if itemType item = some "agent_message" then item else item.mask opaqueKey

/-- A field of a request without the state in it. -/
def blindField (field : String × Json) : String × Json :=
  (field.1,
    if field.1 = opaqueKey then .null
    else if field.1 = "input" then
      match field.2 with
      | .arr items => .arr (items.map blindItem)
      | other => other.mask opaqueKey
    else field.2.mask opaqueKey)

/-- The request without the values of the `encrypted_content` fields that stand
outside messages between agents. -/
def blindRequest : Json → Json
  | .obj fields => .obj (Json.withoutTrailing opaqueKey (fields.map blindField))
  | value => value.mask opaqueKey

/-! The scrubs forget what is masked. -/

section Scrub

open Json

theorem itemType_mask (item : Json) :
    itemType (item.mask opaqueKey) = itemType item := by
  rw [itemType, get_mask (by decide), itemType]
  cases item.get "type" with
  | none => rfl
  | some kind => exact asStr_mask kind

theorem crossRealmFields_append (left right : List (String × Json)) :
    crossRealmFields (left ++ right) =
      crossRealmFields left ++ crossRealmFields right := by
  induction left with
  | nil => rfl
  | cons field rest ih =>
    rw [cons_append, crossRealmFields, crossRealmFields, ih,
      cons_append]

variable {fields : List (String × Json)}

theorem forall_ne_of_nodup_concat {name : String} {value : Json}
    (hnodup : ((fields ++ [(name, value)]).map Prod.fst).Nodup) :
    ∀ field ∈ fields, field.1 ≠ name := by
  rw [map_append, nodup_append] at hnodup
  intro field hfield
  exact hnodup.2.2 field.1 (List.mem_map_of_mem hfield) name mem_cons_self

/-- The scrub of an object whose values are scrubbed alike when masked. -/
theorem stripCrossRealmFields_obj_mask (hnodup : (fields.map Prod.fst).Nodup)
    (hagree : AgreeOff opaqueKey
      (crossRealmFields (maskFields opaqueKey fields))
      (crossRealmFields fields)) :
    stripCrossRealmFields (mask opaqueKey (.obj fields)) =
      stripCrossRealmFields (.obj fields) := by
  have hmasked : ((crossRealmFields (maskFields opaqueKey fields)).map
      Prod.fst).Nodup := by
    rw [names_crossRealmFields, names_maskFields]
    exact hnodup
  have hwhole := (hagree.removeField "reasoning_content").removeField_secret
    (nodup_removeField hmasked _)
  rw [mask, stripCrossRealmFields, stripCrossRealmFields]
  refine congrArg Json.obj (Eq.trans ?_ hwhole)
  rcases withoutTrailing_cases opaqueKey (maskFields opaqueKey fields) with
    hsame | ⟨value, hend⟩
  · rw [hsame]
    rfl
  · rw [hend, crossRealmFields_append] at hmasked ⊢
    have habsent := forall_ne_of_nodup_concat hmasked
    rw [withoutTrailing_append]
    exact (removeField_of_forall_ne
      (forall_ne_removeField habsent _)).trans
        (removeField_trailing (by decide) habsent _).symm

mutual

theorem stripCrossRealmFields_mask :
    (value : Json) → value.distinct = true →
      stripCrossRealmFields (mask opaqueKey value) = stripCrossRealmFields value
  | .obj fields, hdistinct => by
      rw [distinct_obj_iff] at hdistinct
      exact stripCrossRealmFields_obj_mask hdistinct.1
        (crossRealmFields_mask fields hdistinct.2)
  | .arr items, hdistinct => by
      rw [mask, stripCrossRealmFields, stripCrossRealmFields,
        crossRealmItems_mask items (distinct_arr_iff.mp hdistinct)]
  | .null, _ | .bool _, _ | .num _, _ | .str _, _ => rfl

theorem crossRealmFields_mask :
    (fields : List (String × Json)) →
      (∀ field ∈ fields, field.2.distinct = true) →
        AgreeOff opaqueKey (crossRealmFields (maskFields opaqueKey fields))
          (crossRealmFields fields)
  | [], _ => .nil
  | (name, value) :: rest, hdistinct => by
      rw [forall_mem_cons] at hdistinct
      rw [maskFields, crossRealmFields, crossRealmFields]
      refine .cons ⟨rfl, fun hname => ?_⟩
        (crossRealmFields_mask rest hdistinct.2)
      rw [if_neg hname]
      exact stripCrossRealmFields_mask value hdistinct.1

theorem crossRealmItems_mask :
    (items : List Json) → (∀ item ∈ items, item.distinct = true) →
      crossRealmItems (maskItems opaqueKey items) = crossRealmItems items
  | [], _ => rfl
  | item :: rest, hdistinct => by
      rw [forall_mem_cons] at hdistinct
      rw [maskItems, crossRealmItems, crossRealmItems, itemType_mask,
        crossRealmItems_mask rest hdistinct.2,
        stripCrossRealmFields_mask item hdistinct.1]

end

theorem opaqueFields_append (left right : List (String × Json)) :
    opaqueFields (left ++ right) = opaqueFields left ++ opaqueFields right := by
  induction left with
  | nil => rfl
  | cons field rest ih =>
    rw [cons_append, opaqueFields, opaqueFields, ih, cons_append]

theorem reasoningHasSummaryText_mask (summary : Option Json) :
    reasoningHasSummaryText (summary.map (mask opaqueKey)) =
      reasoningHasSummaryText summary := by
  have hpart (part : Json) : nonemptyJsonString ((mask opaqueKey part).get "text") =
      nonemptyJsonString (part.get "text") := by
    rw [get_mask (by decide)]
    cases part.get "text" <;> simp [nonemptyJsonString]
  cases summary with
  | none => rfl
  | some summary =>
    rw [map_some, reasoningHasSummaryText, reasoningHasSummaryText,
      bind_some, bind_some, asArr_mask]
    cases summary.asArr with
    | none => rfl
    | some parts =>
      simp only [map_some, getD_some, List.any_map,
        Function.comp_def, hpart]

/-- What an object loses and gets is decided by what masking keeps. -/
theorem keptSummary_mask (source : Json) (fields : List (String × Json)) :
    keptSummary (mask opaqueKey source) fields = keptSummary source fields := by
  have hread : (((mask opaqueKey source).get "reasoning_content").or
      ((mask opaqueKey source).get "content")).bind asStr =
        ((source.get "reasoning_content").or (source.get "content")).bind
          asStr := by
    rw [get_mask (by decide), get_mask (by decide)]
    cases source.get "reasoning_content" <;> cases source.get "content" <;> simp
  have hsummary : reasoningHasSummaryText
      ((mask opaqueKey source).get "summary") =
        reasoningHasSummaryText (source.get "summary") := by
    rw [get_mask (by decide), reasoningHasSummaryText_mask]
  simp only [keptSummary, hread, hsummary, itemType_mask]

/-- Only what is left without the state matters, with a summary or without. -/
theorem keptSummary_congr {left right : List (String × Json)}
    (hplain : removeField opaqueKey left = removeField opaqueKey right)
    (hput : ∀ summary, removeField opaqueKey (insertField "summary" summary left) =
      removeField opaqueKey (insertField "summary" summary right))
    (source : Json) : keptSummary source left = keptSummary source right := by
  rw [opaqueKey] at hplain hput
  simp only [keptSummary]
  generalize Option.filter _ _ = readable
  cases readable with
  | none => simp only [hplain]
  | some text => split_ifs <;> simp only [hplain, hput]

theorem keptSummary_agree {left right : List (String × Json)}
    (hagree : AgreeOff opaqueKey left right) (hnodup : (left.map Prod.fst).Nodup)
    (source : Json) : keptSummary source left = keptSummary source right :=
  keptSummary_congr (hagree.removeField_secret hnodup)
    (fun summary => (hagree.insertField "summary" summary).removeField_secret
      (nodup_insertField hnodup _ _)) source

theorem keptSummary_trailing (habsent : ∀ field ∈ fields, field.1 ≠ opaqueKey)
    (value source : Json) :
    keptSummary source (fields ++ [(opaqueKey, value)]) =
      keptSummary source fields := by
  refine keptSummary_congr ?_ (fun summary => ?_) source
  · rw [removeField_of_forall_ne habsent, removeField_append _ _ habsent]
    exact append_nil fields
  · rw [insertField_trailing (by decide) habsent, removeField_of_forall_ne
      (forall_ne_insertField (by decide) habsent)]

theorem stripOpaqueReasoning_obj_mask (hnodup : (fields.map Prod.fst).Nodup)
    (hagree : AgreeOff opaqueKey (opaqueFields (maskFields opaqueKey fields))
      (opaqueFields fields)) :
    stripOpaqueReasoning (mask opaqueKey (.obj fields)) =
      stripOpaqueReasoning (.obj fields) := by
  have hmasked : ((opaqueFields (maskFields opaqueKey fields)).map
      Prod.fst).Nodup := by
    rw [names_opaqueFields, names_maskFields]
    exact hnodup
  have hwhole := keptSummary_agree hagree hmasked (.obj fields)
  have hsource := keptSummary_mask (.obj fields)
  rw [mask] at hsource ⊢
  rw [stripOpaqueReasoning, stripOpaqueReasoning, hsource, ← hwhole]
  rcases withoutTrailing_cases opaqueKey (maskFields opaqueKey fields) with
    hsame | ⟨value, hend⟩
  · rw [hsame]
  · rw [hend, opaqueFields_append] at hmasked
    conv_rhs => rw [hend, opaqueFields_append]
    exact congrArg Json.obj
      (keptSummary_trailing (forall_ne_of_nodup_concat hmasked) _ _).symm

mutual

theorem stripOpaqueReasoning_mask :
    (value : Json) → value.distinct = true →
      stripOpaqueReasoning (mask opaqueKey value) = stripOpaqueReasoning value
  | .obj fields, hdistinct => by
      rw [distinct_obj_iff] at hdistinct
      exact stripOpaqueReasoning_obj_mask hdistinct.1
        (opaqueFields_mask fields hdistinct.2)
  | .arr items, hdistinct => by
      rw [mask, stripOpaqueReasoning, stripOpaqueReasoning,
        opaqueItems_mask items (distinct_arr_iff.mp hdistinct)]
  | .null, _ | .bool _, _ | .num _, _ | .str _, _ => rfl

theorem opaqueFields_mask :
    (fields : List (String × Json)) →
      (∀ field ∈ fields, field.2.distinct = true) →
        AgreeOff opaqueKey (opaqueFields (maskFields opaqueKey fields))
          (opaqueFields fields)
  | [], _ => .nil
  | (name, value) :: rest, hdistinct => by
      rw [forall_mem_cons] at hdistinct
      rw [maskFields, opaqueFields, opaqueFields]
      refine .cons ⟨rfl, fun hname => ?_⟩ (opaqueFields_mask rest hdistinct.2)
      rw [if_neg hname]
      exact stripOpaqueReasoning_mask value hdistinct.1

theorem opaqueItems_mask :
    (items : List Json) → (∀ item ∈ items, item.distinct = true) →
      opaqueItems (maskItems opaqueKey items) = opaqueItems items
  | [], _ => rfl
  | item :: rest, hdistinct => by
      rw [forall_mem_cons] at hdistinct
      rw [maskItems, opaqueItems, opaqueItems,
        opaqueItems_mask rest hdistinct.2,
        stripOpaqueReasoning_mask item hdistinct.1]

end

end Scrub

/-! The whole request. -/

section Request

open Json

variable {item body : Json}

theorem portableAgentMessage_of_ne
    (hkind : itemType item ≠ some "agent_message") :
    portableAgentMessage item = item := by
  cases item with
  | obj fields => rw [portableAgentMessage, if_neg hkind]
  | null | bool | num | str | arr => rfl

theorem distinct_messageItem (role partType text : String) :
    (messageItem role partType text).distinct = true := by
  simp [messageItem, distinct, distinctFields, distinctItems]

theorem distinct_portableAgentMessage (hdistinct : item.distinct = true) :
    (portableAgentMessage item).distinct = true := by
  cases item with
  | obj fields =>
    rw [portableAgentMessage]
    split
    · split
      · exact distinct_messageItem ..
      · exact hdistinct
    · exact hdistinct
  | null | bool | num | str | arr => exact hdistinct

theorem distinct_blindItem (hdistinct : item.distinct = true) :
    (blindItem item).distinct = true := by
  rw [blindItem]
  split
  · exact hdistinct
  · exact distinct_mask item hdistinct

theorem mask_portableAgentMessage_blindItem (hdistinct : item.distinct = true) :
    mask opaqueKey (portableAgentMessage (blindItem item)) =
      mask opaqueKey (portableAgentMessage item) := by
  rw [blindItem]
  split
  · rfl
  · rename_i hkind
    rw [portableAgentMessage_of_ne hkind,
      portableAgentMessage_of_ne ((itemType_mask item).symm ▸ hkind),
      mask_mask item hdistinct]

theorem materialize_obj {fields : List (String × Json)}
    (hnodup : (fields.map Prod.fst).Nodup) :
    materializePortableAgentMessages (.obj fields) =
      .obj (fields.map fun field => (field.1,
        if field.1 = "input" then
          match field.2 with
          | .arr items => .arr (items.map portableAgentMessage)
          | other => other
        else field.2)) :=
  modify_obj_eq_map hnodup _ _

theorem distinct_materialize (hdistinct : body.distinct = true) :
    (materializePortableAgentMessages body).distinct = true := by
  cases body with
  | obj fields =>
    rw [distinct_obj_iff] at hdistinct
    rw [materialize_obj hdistinct.1, distinct_obj_iff, List.map_map,
      List.forall_mem_map]
    refine ⟨hdistinct.1, fun field hfield => ?_⟩
    have hvalue := hdistinct.2 field hfield
    simp only
    split
    · split
      · rename_i items hitems
        rw [hitems, distinct_arr_iff] at hvalue
        rw [distinct_arr_iff, List.forall_mem_map]
        exact fun item hitem => distinct_portableAgentMessage (hvalue item hitem)
      · exact hvalue
    · exact hvalue
  | null | bool | num | str | arr => exact hdistinct

theorem distinct_blindRequest (hdistinct : body.distinct = true) :
    (blindRequest body).distinct = true := by
  cases body with
  | obj fields =>
    rw [distinct_obj_iff] at hdistinct
    have hkept := withoutTrailing_prefix opaqueKey (fields.map blindField)
    have hnames : (fields.map blindField).map Prod.fst = fields.map Prod.fst := by
      rw [List.map_map]
      rfl
    rw [blindRequest, distinct_obj_iff]
    refine ⟨(hnames ▸ hdistinct.1).sublist (hkept.sublist.map _),
      fun field hfield => ?_⟩
    obtain ⟨old, hold, rfl⟩ := List.mem_map.mp (hkept.subset hfield)
    have hvalue := hdistinct.2 old hold
    simp only [blindField]
    split
    · rfl
    · split
      · split
        · rename_i items hitems
          rw [hitems, distinct_arr_iff] at hvalue
          rw [distinct_arr_iff, List.forall_mem_map]
          exact fun item hitem => distinct_blindItem (hvalue item hitem)
        · exact distinct_mask _ hvalue
      · exact distinct_mask _ hvalue
  | null | bool | num | str | arr => exact distinct_mask _ hdistinct

/-- The input items of a request, blinded and then materialized. -/
theorem mask_items {items : List Json}
    (hdistinct : ∀ item ∈ items, item.distinct = true) :
    maskItems opaqueKey ((items.map blindItem).map portableAgentMessage) =
      maskItems opaqueKey (items.map portableAgentMessage) := by
  rw [maskItems_eq_map, maskItems_eq_map, List.map_map, List.map_map,
    List.map_map]
  exact map_congr_left fun item hitem =>
    mask_portableAgentMessage_blindItem (hdistinct item hitem)

/-- Once the messages between agents are text, blinding makes no difference
that masking would not make. -/
theorem mask_materialize_blindRequest (hdistinct : body.distinct = true) :
    mask opaqueKey (materializePortableAgentMessages (blindRequest body)) =
      mask opaqueKey (materializePortableAgentMessages body) := by
  cases body with
  | obj fields =>
    have hblind := distinct_blindRequest hdistinct
    rw [blindRequest, distinct_obj_iff] at hblind
    rw [distinct_obj_iff] at hdistinct
    rw [blindRequest, materialize_obj hblind.1, materialize_obj hdistinct.1,
      mask, mask, maskFields_eq_map, maskFields_eq_map, List.map_map,
      List.map_map, ← withoutTrailing_map, List.map_map, withoutTrailing_idem]
    · refine congrArg (fun fields => obj (withoutTrailing opaqueKey fields))
        (map_congr_left fun field hfield => ?_)
      have hvalue := hdistinct.2 field hfield
      obtain ⟨name, value⟩ := field
      simp only [Function.comp_apply, blindField, Prod.mk.injEq, true_and]
      by_cases hsecret : name = opaqueKey
      · rw [if_pos hsecret, if_pos hsecret]
      rw [if_neg hsecret, if_neg hsecret, if_neg hsecret]
      by_cases hinput : name = "input"
      · rw [if_pos hinput, if_pos hinput, if_pos hinput]
        cases value with
        | arr items =>
          exact congrArg Json.arr (mask_items (distinct_arr_iff.mp hvalue))
        | obj fields => exact mask_mask _ hvalue
        | null | bool | num | str => rfl
      · rw [if_neg hinput, if_neg hinput, if_neg hinput, mask_mask _ hvalue]
    · rw [List.map_map]
      exact hdistinct.1
    · intro field
      rfl
  | null | bool | num | str | arr => exact mask_mask _ hdistinct

theorem scrub_blindRequest {scrub : Json → Json}
    (hscrub : ∀ value : Json, value.distinct = true →
      scrub (mask opaqueKey value) = scrub value)
    (hdistinct : body.distinct = true) :
    scrub (materializePortableAgentMessages (blindRequest body)) =
      scrub (materializePortableAgentMessages body) := by
  have hblind := distinct_materialize (distinct_blindRequest hdistinct)
  rw [← hscrub _ hblind, mask_materialize_blindRequest hdistinct,
    hscrub _ (distinct_materialize hdistinct)]

theorem canonicalRequest_blindRequest (route : ProfileAdapterRoute) {body : Json}
    (hdistinct : body.distinct = true) :
    canonicalRequest route (blindRequest body) = canonicalRequest route body := by
  rw [canonicalRequest, canonicalRequest,
    scrub_blindRequest stripOpaqueReasoning_mask hdistinct,
    scrub_blindRequest stripCrossRealmFields_mask hdistinct]

theorem requestEffort_blindRequest (body : Json) :
    requestEffort (blindRequest body) = requestEffort body := by
  have hreasoning : (blindRequest body).get "reasoning" =
      (body.get "reasoning").map (mask opaqueKey) := by
    cases body with
    | obj fields =>
      rw [blindRequest, get_withoutTrailing (by decide)]
      induction fields with
      | nil => rfl
      | cons field rest ih =>
        obtain ⟨name, value⟩ := field
        rw [map_cons, blindField, get_cons, get_cons, ih]
        by_cases hname : name = "reasoning"
        · subst hname
          rfl
        · rw [if_neg hname, if_neg hname]
    | null | bool | num | str | arr => rfl
  rw [requestEffort, requestEffort, hreasoning]
  cases body.get "reasoning" with
  | none => rfl
  | some reasoning =>
    rw [map_some, bind_some, bind_some,
      get_mask (by decide)]
    cases reasoning.get "effort" with
    | none => rfl
    | some effort => exact asStr_mask effort

/-- Everything a translated route reads of a request is still there. -/
theorem prepare_blindRequest (crates : AdapterCrates) (guidance : EvalGuidance)
    (route : ProfileAdapterRoute) {profile : HarnessProfile}
    (environment : ExecutionEnvironment) (catalogEntry : Option Json)
    (webSearchEnabled : Bool) (replay : ReplayContext)
    (htranslated : profile.kind.isTranslated = true)
    (hdistinct : body.distinct = true) :
    prepareUpstreamRequestDetails crates guidance (blindRequest body) route
        profile environment catalogEntry webSearchEnabled replay =
      prepareUpstreamRequestDetails crates guidance body route profile
        environment catalogEntry webSearchEnabled replay := by
  have hadmit : admitRequest crates.toCrates profile catalogEntry
      (blindRequest body) =
        admitRequest crates.toCrates profile catalogEntry body := by
    unfold admitRequest
    rw [requestEffort_blindRequest]
  rw [prepareUpstreamRequestDetails, prepareUpstreamRequestDetails, hadmit,
    canonicalRequest_blindRequest route hdistinct, htranslated]
  rfl

/-- A translated route sends the same for requests that are the same without
their provider state. -/
theorem prepare_eq_of_blindRequest_eq (crates : AdapterCrates)
    (guidance : EvalGuidance) (route : ProfileAdapterRoute)
    {profile : HarnessProfile} (environment : ExecutionEnvironment)
    (catalogEntry : Option Json) (webSearchEnabled : Bool)
    (replay : ReplayContext) (htranslated : profile.kind.isTranslated = true)
    {left right : Json} (hleft : left.distinct = true)
    (hright : right.distinct = true)
    (hblind : blindRequest left = blindRequest right) :
    prepareUpstreamRequestDetails crates guidance left route profile
        environment catalogEntry webSearchEnabled replay =
      prepareUpstreamRequestDetails crates guidance right route profile
        environment catalogEntry webSearchEnabled replay := by
  rw [← prepare_blindRequest crates guidance route environment catalogEntry
      webSearchEnabled replay htranslated hleft, hblind,
    prepare_blindRequest crates guidance route environment catalogEntry
      webSearchEnabled replay htranslated hright]

end Request

namespace Ciphertext

/-- A request whose last item is the output of a tool. -/
def request (output : List (String × Json)) : Json :=
  .obj [("model", .str "m"), ("input", .arr [.obj
    [("type", .str "custom_tool_call_output"), ("call_id", .str "c"),
      ("output", .obj output)]])]

def first : String × Json := ("a", .str "x")

def second : String × Json := ("b", .str "y")

def state (value : String) : String × Json := (opaqueKey, .str value)

/-- The texts of the two orders of the fields. -/
def crates : AdapterCrates where
  fromStr _ := none
  toStr value :=
    if value = .obj [first, second] then "\x7b\"a\":\"x\",\"b\":\"y\"\x7d"
    else if value = .obj [second, first] then
      "\x7b\"b\":\"y\",\"a\":\"x\"\x7d"
    else ""
  sha256 _ := []
  recompress _ _ _ := none
  parseUrl _ := none
  printUrl _ := ""

def route : ProfileAdapterRoute where
  upstreamModel := "m"
  reasoning := true
  vision := false
  providerKind := .openAiCompatible
  wire := .responses
  baseUrl := "https://example.test/v1"

def sent (output : List (String × Json)) :
    Except String PreparedUpstreamRequest :=
  prepareUpstreamRequestDetails crates {} (request output) route
    (.generic .responses) .posixReference none false {}

/-- What leaves when the output of the tool has this text. -/
def upstream (text : String) : PreparedUpstreamRequest where
  body := .obj [("model", .str "m"), ("input", .arr
    [.obj [("type", .str "function_call_output"), ("call_id", .str "c"),
      ("output", .str text)]])]

theorem sent_of_normalized {output : List (String × Json)} {canonical body : Json}
    (hcanonical : canonicalRequest route (request output) = .ok canonical)
    (hnormalized : normalizedRequest crates.toCrates route (.generic .responses)
      false canonical = .ok body)
    (htools : modelVisibleTools body .responses (.generic .responses) = ([], [])) :
    sent output = .ok { body } := by
  rw [sent, prepare_iff _ _ _ _ _ _ _ rfl hcanonical]
  refine ⟨rfl, body, _, hnormalized, rfl, ?_⟩
  rw [instructedRequest, show route.wire = .responses from rfl, htools,
    applyRequestTimeInstructions_nil]
  dsimp only
  split
  · contradiction
  · rfl

/-- Two requests that differ in two ciphertexts leave as one. -/
theorem state_does_not_leave :
    sent [first, second, state "k"] = sent [first, second, state "l"] :=
  prepare_eq_of_blindRequest_eq crates {} route .posixReference none false {}
    rfl (by decide) (by decide) (by decide)

/-- Where the state stands in front, the last field takes its place, and the
text of the output shows the order. -/
theorem state_reorders_output :
    sent [state "k", first, second] =
        .ok (upstream "\x7b\"b\":\"y\",\"a\":\"x\"\x7d") ∧
      sent [first, second] =
        .ok (upstream "\x7b\"a\":\"x\",\"b\":\"y\"\x7d") ∧
      sent [state "k", first, second] ≠ sent [first, second] := by
  have hwith : sent [state "k", first, second] =
      .ok (upstream "\x7b\"b\":\"y\",\"a\":\"x\"\x7d") :=
    sent_of_normalized rfl (by decide) (by decide)
  have hwithout : sent [first, second] =
      .ok (upstream "\x7b\"a\":\"x\",\"b\":\"y\"\x7d") :=
    sent_of_normalized rfl (by decide) (by decide)
  refine ⟨hwith, hwithout, ?_⟩
  rw [hwith, hwithout]
  decide

end Ciphertext

end Vellum.Proxy
