/-
What a prepared Chat request is made of: the messages of its transcript and
the functions of its declarations, whose strings only change where they are
images.
-/
import Vellum.Proxy.UpstreamRequest

namespace Vellum.Proxy

open List Option Json

/-! Fields that are put and dropped. -/

theorem get_putField {name key : String} (hkey : key ≠ name) (value body : Json) :
    (putField name value body).get key = body.get key := by
  cases body with
  | obj fields => rw [putField, get_insertField, if_neg hkey]
  | null | bool | num | str | arr => rfl

theorem get_dropField {name key : String} (hkey : key ≠ name) {body : Json}
    (htidy : body.Tidy) : (dropField name body).get key = body.get key := by
  cases body with
  | obj fields => exact get_removeField (htidy fields rfl) hkey
  | null | bool | num | str | arr => rfl

theorem tidy_obj_iff {fields : List (String × Json)} :
    (obj fields).Tidy ↔ (fields.map Prod.fst).Nodup :=
  ⟨fun htidy => htidy fields rfl, fun hnodup _ heq => Json.obj.inj heq ▸ hnodup⟩

theorem tidy_putField {body : Json} (htidy : body.Tidy) (name : String)
    (value : Json) : (putField name value body).Tidy := by
  cases body with
  | obj fields =>
    exact tidy_obj_iff.mpr
      (nodup_insertField (tidy_obj_iff.mp htidy) name value)
  | null | bool | num | str | arr => exact htidy

theorem tidy_dropField {body : Json} (htidy : body.Tidy) (name : String) :
    (dropField name body).Tidy := by
  cases body with
  | obj fields =>
    exact tidy_obj_iff.mpr (nodup_removeField (tidy_obj_iff.mp htidy) name)
  | null | bool | num | str | arr => exact htidy

/-- A step on the fields of a body that leaves the fields of some names
alone. -/
structure Leaves (keys : List String) (before after : Json) : Prop where
  tidy : after.Tidy
  get : ∀ key ∈ keys, after.get key = before.get key

namespace Leaves

variable {keys : List String} {before middle after : Json}

theorem refl (htidy : before.Tidy) : Leaves keys before before :=
  ⟨htidy, fun _ _ => rfl⟩

theorem trans (hfirst : Leaves keys before middle)
    (hsecond : Leaves keys middle after) : Leaves keys before after :=
  ⟨hsecond.tidy, fun key hkey =>
    (hsecond.get key hkey).trans (hfirst.get key hkey)⟩

theorem putField (htidy : before.Tidy) {name : String} (hname : name ∉ keys)
    (value : Json) : Leaves keys before (putField name value before) where
  tidy := tidy_putField htidy name value
  get _ hkey := get_putField (ne_of_mem_of_not_mem hkey hname) value before

theorem dropField (htidy : before.Tidy) {name : String} (hname : name ∉ keys) :
    Leaves keys before (dropField name before) where
  tidy := tidy_dropField htidy name
  get _ hkey := get_dropField (ne_of_mem_of_not_mem hkey hname) htidy

variable {fields : List (String × Json)}

theorem insertField (htidy : (obj fields).Tidy) {name : String}
    (hname : name ∉ keys) (value : Json) :
    Leaves keys (.obj fields) (.obj (insertField name value fields)) :=
  .putField htidy hname value

theorem removeField (htidy : (obj fields).Tidy) {name : String}
    (hname : name ∉ keys) :
    Leaves keys (.obj fields) (.obj (removeField name fields)) :=
  .dropField htidy hname

end Leaves

/-- The fields that hold what the model reads. -/
def contentKeys : List String := ["messages", "tools", "input"]

/-- The fields that the end of the translation writes. -/
def writtenKeys : List String :=
  ["instructions", "reasoning", "reasoning_effort", "chat_template_kwargs",
    "prompt_cache_key", "temperature", "top_p", "reasoning_budget"]

section Written

variable {keys : List String}

/-- A field behind the others, if its name is new. -/
theorem leaves_orInsert {fields : List (String × Json)}
    (htidy : (obj fields).Tidy) {field : String × Json}
    (hname : field.1 ∉ keys) :
    Leaves keys (.obj fields) (.obj (orInsert fields field)) := by
  rw [orInsert]
  split
  · exact .refl htidy
  · rename_i hget
    rw [Bool.not_eq_true, isSome_eq_false_iff, isNone_iff_eq_none]
      at hget
    rw [show fields ++ [field] = insertField field.1 field.2 fields from
      (insertField_of_get_none hget field.2).symm]
    exact .putField htidy hname field.2

theorem leaves_foldl_orInsert (added : List (String × Json))
    (hadded : ∀ field ∈ added, field.1 ∉ keys)
    {fields : List (String × Json)} (htidy : (obj fields).Tidy) :
    Leaves keys (.obj fields) (.obj (added.foldl orInsert fields)) := by
  induction added generalizing fields with
  | nil => exact .refl htidy
  | cons field rest ih =>
    rw [forall_mem_cons] at hadded
    have hfirst := leaves_orInsert htidy hadded.1
    exact hfirst.trans (ih hadded.2 hfirst.tidy)

variable {body : Json}

theorem leaves_mergeObjectField {key : String} (hkey : key ∉ keys)
    (patch : List (String × Json)) (htidy : body.Tidy) :
    Leaves keys body (mergeObjectField key patch body) := by
  rw [mergeObjectField]
  split
  · exact .putField htidy hkey _
  · exact .putField htidy hkey _

variable (hkeys : ∀ name ∈ writtenKeys, name ∉ keys)

include hkeys

theorem leaves_stripRelocatedEffortField (htidy : body.Tidy) :
    Leaves keys body (stripRelocatedEffortField body) := by
  have hdrop : Leaves keys body (dropField "reasoning_effort" body) :=
    .dropField htidy (hkeys _ (by decide))
  rw [stripRelocatedEffortField]
  refine hdrop.trans ?_
  split
  · simp only
    split
    · exact .dropField hdrop.tidy (hkeys _ (by decide))
    · exact .putField hdrop.tidy (hkeys _ (by decide)) _
  · exact .refl hdrop.tidy

theorem leaves_applyReasoningEffortTransport (effort : String)
    (transport : RuntimeReasoningEffortTransport) (htidy : body.Tidy) :
    Leaves keys body
      (applyReasoningEffortTransport effort transport body) := by
  cases transport with
  | responsesObject | chatObject | chatField =>
    exact .putField htidy (hkeys _ (by decide)) _
  | providerSpecific =>
    have hmerge : Leaves keys body
        (mergeObjectField "chat_template_kwargs"
          [("reasoning_effort", .str effort)] body) :=
      leaves_mergeObjectField (hkeys _ (by decide)) _ htidy
    exact hmerge.trans (leaves_stripRelocatedEffortField hkeys hmerge.tidy)
  | none => exact .refl htidy

theorem leaves_applyRequestTimeInstructions (profile : HarnessProfile)
    (tools : List ToolSnapshot) (environment : ExecutionEnvironment)
    (baseline : Option String) (guidance : EvalGuidance) (htidy : body.Tidy) :
    Leaves keys body (applyRequestTimeInstructions profile tools
      environment baseline guidance body) := by
  rw [applyRequestTimeInstructions]
  split
  · exact .refl htidy
  · exact .putField htidy (hkeys _ (by decide)) _

theorem leaves_applyProviderChatOptions (route : ProfileAdapterRoute)
    (htidy : body.Tidy) :
    Leaves keys body (applyProviderChatOptions route body) := by
  have hdrop : Leaves keys body (dropField "prompt_cache_key" body) :=
    .dropField htidy (hkeys _ (by decide))
  simp only [applyProviderChatOptions]
  split
  · exact .refl htidy
  · split
    · refine hdrop.trans ?_
      split
      · rename_i fields hfields
        rw [hfields] at hdrop ⊢
        have hwritten : ∀ field ∈ [("temperature", Json.nat 1),
            ("top_p", .num (.float 0x3FEE666666666666)),
            ("chat_template_kwargs", .obj [("enable_thinking", .bool true)])],
            field.1 ∈ writtenKeys := by decide
        have hseeded := leaves_foldl_orInsert _
          (fun field hfield => hkeys _ (hwritten field hfield)) hdrop.tidy
        refine hseeded.trans (leaves_orInsert hseeded.tidy ?_)
        exact hkeys "reasoning_budget" (by decide)
      · exact .refl hdrop.tidy
    · exact hdrop

end Written

/-! The scrubbed request. -/

theorem tidy_materializePortableAgentMessages {body : Json}
    (htidy : body.Tidy) : (materializePortableAgentMessages body).Tidy := by
  cases body with
  | obj fields =>
    rw [materializePortableAgentMessages]
    obtain ⟨changed, heq, hnames⟩ := modify_obj "input" _ fields
    rw [heq, tidy_obj_iff, hnames]
    exact tidy_obj_iff.mp htidy
  | null | bool | num | str | arr => exact htidy

theorem tidy_stripCrossRealmFields {body : Json} (htidy : body.Tidy) :
    (stripCrossRealmFields body).Tidy := by
  cases body with
  | obj fields =>
    rw [stripCrossRealmFields, tidy_obj_iff]
    rw [tidy_obj_iff, ← names_crossRealmFields] at htidy
    exact nodup_removeField (nodup_removeField htidy _) _
  | arr items =>
    intro fields hfields
    cases hfields
  | null | bool | num | str => exact htidy

theorem nodup_keptSummary (source : Json) {fields : List (String × Json)}
    (hnodup : (fields.map Prod.fst).Nodup) :
    ((keptSummary source fields).map Prod.fst).Nodup := by
  unfold keptSummary
  extract_lets isReasoning readable summarized stripped
  have hsummarized : (summarized.map Prod.fst).Nodup := by
    simp only [summarized]
    split
    · split
      · exact nodup_insertField hnodup _ _
      · exact hnodup
    · exact hnodup
  have hstripped : (stripped.map Prod.fst).Nodup :=
    nodup_removeField (nodup_removeField hsummarized _) _
  split
  · exact nodup_removeField hstripped _
  · exact hstripped

theorem tidy_stripOpaqueReasoning {body : Json} (htidy : body.Tidy) :
    (stripOpaqueReasoning body).Tidy := by
  cases body with
  | obj fields =>
    rw [stripOpaqueReasoning, tidy_obj_iff]
    rw [tidy_obj_iff, ← names_opaqueFields] at htidy
    exact nodup_keptSummary _ htidy
  | arr items =>
    intro fields hfields
    cases hfields
  | null | bool | num | str => exact htidy

variable (crates : AdapterCrates) (change : String → String)
  (route : ProfileAdapterRoute) (body : Json) {canonical : Json}

theorem tidy_canonicalRequest {route : ProfileAdapterRoute} {original : Json}
    (htidy : original.Tidy)
    (hcanonical : canonicalRequest route original = .ok canonical) :
    canonical.Tidy := by
  have hportable := tidy_materializePortableAgentMessages htidy
  unfold canonicalRequest at hcanonical
  extract_lets portable scrubbed at hcanonical
  have hscrubbed : scrubbed.Tidy := by
    simp only [scrubbed]
    split
    · exact tidy_stripOpaqueReasoning hportable
    · exact tidy_stripCrossRealmFields hportable
  clear_value scrubbed
  split at hcanonical
  · obtain rfl := Except.ok.inj hcanonical
    exact tidy_putField hscrubbed _ _
  · obtain rfl := Except.ok.inj hcanonical
    exact tidy_obj_iff.mpr (nodup_singleton _)
  · cases hcanonical

/-! The pass over the images. -/

/-- A rewriting of strings that only touches images. -/
def ImagesOnly (change : String → String) : Prop :=
  ∀ text, startsWith text "data:image/" = false → change text = text

theorem imagesOnly_rewriteDataImage (maxLongEdge quality : Nat) :
    ImagesOnly (rewriteDataImage crates maxLongEdge quality) := by
  intro text htext
  rw [rewriteDataImage, htext, if_neg Bool.false_ne_true]

theorem ImagesOnly.comp {first second : String → String}
    (hsecond : ImagesOnly second) (hfirst : ImagesOnly first) :
    ImagesOnly (second ∘ first) := by
  intro text htext
  rw [Function.comp_apply, hfirst text htext, hsecond text htext]

mutual

theorem mapStrings_mapStrings (first second : String → String) :
    (value : Json) → mapStrings second (mapStrings first value) =
      mapStrings (second ∘ first) value
  | .str text => rfl
  | .arr items => by
      rw [mapStrings, mapStrings, mapStrings, mapItems_mapItems]
  | .obj fields => by
      rw [mapStrings, mapStrings, mapStrings, mapFields_mapFields]
  | .null | .bool _ | .num _ => rfl

theorem mapItems_mapItems (first second : String → String) :
    (items : List Json) → mapItems second (mapItems first items) =
      mapItems (second ∘ first) items
  | [] => rfl
  | item :: rest => by
      rw [mapItems, mapItems, mapItems, mapStrings_mapStrings,
        mapItems_mapItems]

theorem mapFields_mapFields (first second : String → String) :
    (fields : List (String × Json)) → mapFields second (mapFields first fields) =
      mapFields (second ∘ first) fields
  | [] => rfl
  | (name, value) :: rest => by
      rw [mapFields, mapFields, mapFields, mapStrings_mapStrings,
        mapFields_mapFields]

end

mutual

theorem mapStrings_id : (value : Json) → mapStrings id value = value
  | .str text => rfl
  | .arr items => by rw [mapStrings, mapItems_id]
  | .obj fields => by rw [mapStrings, mapFields_id]
  | .null | .bool _ | .num _ => rfl

theorem mapItems_id : (items : List Json) → mapItems id items = items
  | [] => rfl
  | item :: rest => by rw [mapItems, mapStrings_id, mapItems_id]

theorem mapFields_id :
    (fields : List (String × Json)) → mapFields id fields = fields
  | [] => rfl
  | (name, value) :: rest => by rw [mapFields, mapStrings_id, mapFields_id]

end

theorem mapItems_eq_map (items : List Json) :
    mapItems change items = items.map (mapStrings change) := by
  induction items with
  | nil => rfl
  | cons item rest ih => rw [mapItems, ih, map_cons]

theorem get_mapStrings (name : String) (value : Json) :
    (mapStrings change value).get name =
      (value.get name).map (mapStrings change) := by
  cases value with
  | obj fields =>
    rw [mapStrings]
    induction fields with
    | nil => rfl
    | cons field rest ih =>
      obtain ⟨key, value⟩ := field
      rw [mapFields, get_cons, get_cons, ih]
      split
      · rfl
      · rfl
  | null | bool | num | str | arr => rfl

theorem asStr_mapStrings (value : Json) :
    (mapStrings change value).asStr = value.asStr.map change := by
  cases value <;> rfl

/-- What the passes over the images make of a string. -/
def fitChange (crates : AdapterCrates) (targetBytes : Nat) :
    List (Nat × Nat) → Json → String → String
  | [], _ => id
  | (longEdge, quality) :: rest, body =>
    let body := rewriteDataImages crates longEdge quality body
    if (crates.toStr body).utf8ByteSize ≤ targetBytes then
      rewriteDataImage crates longEdge quality
    else
      fitChange crates targetBytes rest body ∘
        rewriteDataImage crates longEdge quality

/-- What the last pass makes of the strings of a Chat request. -/
def imageChange (crates : AdapterCrates) (route : ProfileAdapterRoute)
    (body : Json) : String → String :=
  if !isOpencodeGoEndpoint crates route.baseUrl ||
      (crates.toStr body).utf8ByteSize ≤ opencodeGoRequestBodyBytes then id
  else
    fitChange crates opencodeGoRequestTargetBytes
      [(2048, 85), (1536, 78), (1024, 72), (768, 65)] body

theorem fitPasses_eq (targetBytes : Nat) (passes : List (Nat × Nat))
    (body : Json) :
    fitPasses crates targetBytes passes body =
      mapStrings (fitChange crates targetBytes passes body) body := by
  induction passes generalizing body with
  | nil => exact (mapStrings_id body).symm
  | cons pass rest ih =>
    rw [fitPasses, fitChange]
    split
    · rfl
    · rw [ih, rewriteDataImages, mapStrings_mapStrings]

theorem imagesOnly_fitChange (targetBytes : Nat) (passes : List (Nat × Nat))
    (body : Json) : ImagesOnly (fitChange crates targetBytes passes body) := by
  induction passes generalizing body with
  | nil => exact fun _ _ => rfl
  | cons pass rest ih =>
    have hpass := imagesOnly_rewriteDataImage crates pass.1 pass.2
    rw [fitChange]
    split
    · exact hpass
    · exact (ih _).comp hpass

theorem fitChatImages_eq :
    fitChatImagesToProviderRequestBudget crates route body =
      mapStrings (imageChange crates route body) body := by
  rw [fitChatImagesToProviderRequestBudget, imageChange]
  split
  · exact (mapStrings_id body).symm
  · exact fitPasses_eq _ _ _ body

theorem imagesOnly_imageChange :
    ImagesOnly (imageChange crates route body) := by
  rw [imageChange]
  split
  · exact fun _ _ => rfl
  · exact imagesOnly_fitChange _ _ _ body

theorem imageChange_eq_id {crates : AdapterCrates} {route : ProfileAdapterRoute}
    (hother : isOpencodeGoEndpoint crates route.baseUrl = false) (body : Json) :
    imageChange crates route body = id := by
  rw [imageChange, hother]
  rfl

/-! The fields of a Chat request. -/

theorem names_keptChatFields (keys : List String) :
    ((keys.filterMap fun key =>
      (body.get key).map fun value => (key, value)).map Prod.fst).Sublist keys := by
  induction keys with
  | nil => exact .slnil
  | cons key rest ih =>
    rw [filterMap_cons]
    cases body.get key with
    | none => exact ih.cons key
    | some value => exact ih.cons_cons key

/-- The fields in front of those that are kept. -/
def chatFrontKeys : List String :=
  ["model", "messages", "stream", "tools", "tool_choice", "stream_options"]

/-- A Chat request has fields in front, and behind them those that are kept. -/
structure ChatBodySplit (tools : List Json) (projection : ChatProjection)
    (front rest : List (String × Json)) : Prop where
  names : (front.map Prod.fst).Sublist chatFrontKeys
  messages : (obj front).get "messages" =
    some (.arr (projection.map fun pair => pair.1.toJson))
  tools : (obj front).get "tools" =
    if tools.isEmpty then none else some (.arr tools)
  nodup : (rest.map Prod.fst).Nodup
  kept : ∀ name ∈ rest.map Prod.fst, name ∈ keptChatFields

/-- The choice among its functions that a Chat request is given. -/
def chatToolChoice (crates : Crates) (body : Json) (tools : List Json) :
    Option Json :=
  if tools.isEmpty then none
  else if hasAutoOrMissingToolChoice body &&
      shouldRequireInitialWorkspaceTool crates body then
    some (.str "required")
  else (body.get "tool_choice").map normalizeChatToolChoice

theorem exists_chatBodySplit (crates : Crates) (body : Json) (tools : List Json)
    (projection : ChatProjection) :
    ∃ front rest, chatBody crates body tools projection = .obj (front ++ rest) ∧
      ChatBodySplit tools projection front rest ∧
      (obj front).get "tool_choice" = chatToolChoice crates body tools := by
  have hnames := names_keptChatFields body keptChatFields
  rw [chatBody]
  simp only []
  generalize hfront : (if ((body.get "stream").bind asBool).getD true = true
    then _ else _ : List (String × Json)) = front
  have hsplit (rest : List (String × Json)) (hnodup : (rest.map Prod.fst).Nodup)
      (hkept : ∀ name ∈ rest.map Prod.fst, name ∈ keptChatFields) :
      ChatBodySplit tools projection front rest ∧
        (obj front).get "tool_choice" = chatToolChoice crates body tools := by
    refine ⟨⟨?_, ?_, ?_, hnodup, hkept⟩, ?_⟩
    · rw [← hfront]
      cases body.get "tool_choice" <;> split_ifs <;>
        exact isSublist_iff_sublist.mp rfl
    · rw [← hfront]
      split_ifs <;> rfl
    · rw [← hfront]
      cases body.get "tool_choice" <;> split_ifs <;> rfl
    · rw [← hfront, chatToolChoice]
      cases body.get "tool_choice" <;> split_ifs <;> rfl
  split
  · exact ⟨front, _, rfl, hsplit _ (hnames.nodup (by decide))
      fun name hname => hnames.subset hname⟩
  · rename_i hmax
    rw [Bool.not_eq_true, isSome_eq_false_iff,
      isNone_iff_eq_none, get_eq_none_iff, map_append,
      mem_append, not_or] at hmax
    refine ⟨front, _, by rw [append_assoc], hsplit _ ?_ ?_⟩
    · rw [map_append]
      cases body.get "max_output_tokens" with
      | none => simpa using hnames.nodup (by decide)
      | some value =>
        exact (hnames.nodup (by decide)).append (nodup_singleton _)
          (disjoint_singleton.mpr hmax.2)
    · intro name hname
      rw [map_append, mem_append] at hname
      rcases hname with hname | hname
      · exact hnames.subset hname
      · cases hvalue : body.get "max_output_tokens" with
        | none => simp [hvalue] at hname
        | some value =>
          obtain rfl : name = "max_tokens" := by simpa [hvalue] using hname
          decide

theorem tidy_chatBody (crates : Crates) (body : Json) (tools : List Json)
    (projection : ChatProjection) :
    (chatBody crates body tools projection).Tidy := by
  obtain ⟨front, rest, heq, hsplit, -⟩ :=
    exists_chatBodySplit crates body tools projection
  have hapart : ∀ name ∈ chatFrontKeys, name ∉ keptChatFields := by decide
  rw [heq, tidy_obj_iff, map_append]
  exact (hsplit.names.nodup (by decide)).append hsplit.nodup
    fun name hname hrest =>
      hapart name (hsplit.names.subset hname) (hsplit.kept name hrest)

theorem get_chatBody (crates : Crates) (body : Json) (tools : List Json)
    (projection : ChatProjection) :
    (chatBody crates body tools projection).get "messages" =
        some (.arr (projection.map fun pair => pair.1.toJson)) ∧
      (chatBody crates body tools projection).get "tools" =
        (if tools.isEmpty then none else some (.arr tools)) ∧
      (chatBody crates body tools projection).get "tool_choice" =
        chatToolChoice crates body tools := by
  obtain ⟨front, rest, heq, hsplit, hchoice⟩ :=
    exists_chatBodySplit crates body tools projection
  have hapart {name : String} (hname : name ∉ keptChatFields) :
      (obj (front ++ rest)).get name = (obj front).get name := by
    have hrest : (obj rest).get name = none :=
      get_eq_none_iff.mpr fun hmem => hname (hsplit.kept name hmem)
    rw [Json.get, map_eq_none_iff] at hrest
    rw [Json.get, Json.get, find?_append, hrest, or_none]
  rw [heq, hapart (by decide), hapart (by decide), hapart (by decide)]
  exact ⟨hsplit.messages, hsplit.tools, hchoice⟩

/-! A preparation that succeeds. -/

/-- What a prepared Chat request was made of. -/
structure ChatPrepared (crates : AdapterCrates) (route : ProfileAdapterRoute)
    (profile : HarnessProfile) (replay : ReplayContext) (canonical : Json)
    (prepared : PreparedUpstreamRequest) where
  items : List (Json × ChatMessageProvenance)
  embedded : List Json
  tools : List Json
  projection : ChatProjection
  change : String → String
  isObject : canonical.isObject = true
  items_eq : chatInputItems crates.toCrates profile replay canonical =
    .ok (items, embedded)
  tools_eq : chatRequestTools crates.toCrates profile (requestTools canonical)
    embedded = .ok tools
  projection_eq : chatTranscript crates.toCrates route.chatCapabilities
    (leadingSystem canonical tools) items
    (shouldReplayReasoning route.chatCapabilities replay) route.vision =
      .ok projection
  checked : checkChatTranscriptInvariants crates.toCrates projection
    route.chatCapabilities = .ok ()
  imagesOnly : ImagesOnly change
  unchanged : isOpencodeGoEndpoint crates route.baseUrl = false → change = id
  provenance : prepared.chatProvenance = projection.map Prod.snd
  messages : prepared.body.get "messages" = some (.arr
    ((projection.map fun pair => pair.1.toJson).map (mapStrings change)))
  sentTools : prepared.body.get "tools" =
    if tools.isEmpty then none
    else some (.arr (tools.map (mapStrings change)))

theorem exists_of_bind_eq_ok {ε α β : Type} {first : Except ε α}
    {second : α → Except ε β} {result : β}
    (hbind : first >>= second = .ok result) :
    ∃ value, first = .ok value ∧ second value = .ok result := by
  cases first with
  | error error => cases hbind
  | ok value => exact ⟨value, rfl, hbind⟩

/-- From the Chat request to what is sent, its messages and its functions only
change where they are images. -/
theorem exists_sentChatRequest (effort : Option String)
    (suppressRequired : Bool) {chat : Json} (htidy : chat.Tidy) :
    ∃ change, ImagesOnly change ∧
      (isOpencodeGoEndpoint crates route.baseUrl = false → change = id) ∧
      ∀ key ∈ contentKeys,
        (sentChatRequest crates route effort suppressRequired chat).get key =
          (chat.get key).map (mapStrings change) := by
  unfold sentChatRequest
  extract_lets chosen optioned transported
  have hchosen : Leaves contentKeys chat chosen := by
    simp only [chosen]
    split
    · exact .dropField htidy (by decide)
    · exact .refl htidy
  have hoptioned : Leaves contentKeys chat optioned :=
    hchosen.trans (leaves_applyProviderChatOptions (by decide) route hchosen.tidy)
  have htransported : Leaves contentKeys chat transported := by
    simp only [transported]
    cases effort with
    | none => exact hoptioned
    | some effort =>
      exact hoptioned.trans (leaves_applyReasoningEffortTransport (by decide)
        effort route.reasoningEffortTransport hoptioned.tidy)
  refine ⟨imageChange crates route transported,
    imagesOnly_imageChange crates route transported,
    fun hother => imageChange_eq_id hother transported, fun key hkey => ?_⟩
  rw [fitChatImages_eq, get_mapStrings, htransported.get key hkey]

theorem exists_of_map_eq_ok {ε α β : Type} {first : Except ε α} {change : α → β}
    {result : β} (hmap : first.map change = .ok result) :
    ∃ value, first = .ok value ∧ change value = result := by
  cases first with
  | error error => cases hmap
  | ok value => exact ⟨value, rfl, Except.ok.inj hmap⟩

theorem exists_chatPrepared {crates : AdapterCrates}
    {route : ProfileAdapterRoute} {profile : HarnessProfile}
    {replay : ReplayContext} {effort : Option String}
    {prepared : PreparedUpstreamRequest}
    (hprepared : prepareChatRequest crates route profile replay effort
      canonical = .ok prepared) :
    Nonempty (ChatPrepared crates route profile replay canonical prepared) := by
  rw [prepareChatRequest] at hprepared
  obtain ⟨⟨chat, projection⟩, hchat, hprepared⟩ := exists_of_bind_eq_ok hprepared
  obtain ⟨_, hchecked, hprepared⟩ := exists_of_bind_eq_ok hprepared
  rw [responsesToChatProjection] at hchat
  cases hobject : canonical.isObject with
  | false =>
    rw [hobject] at hchat
    cases hchat
  | true =>
    rw [hobject] at hchat
    obtain ⟨⟨items, embedded⟩, hitems, hchat⟩ := exists_of_bind_eq_ok hchat
    obtain ⟨tools, htools, hchat⟩ := exists_of_bind_eq_ok hchat
    obtain ⟨transcript, hprojection, hchat⟩ := exists_of_bind_eq_ok hchat
    obtain ⟨rfl, rfl⟩ := Prod.mk.inj (Except.ok.inj hchat)
    obtain rfl := Except.ok.inj hprepared
    have hbody := get_chatBody crates.toCrates
      (if ((canonical.get "input").bind asArr).isSome then
        putField "input" (.arr (items.map Prod.fst)) canonical
      else canonical) tools transcript
    obtain ⟨change, himages, hid, hget⟩ := exists_sentChatRequest crates route
      effort (route.reasoning && hasAutoOrMissingToolChoice canonical &&
        shouldRequireInitialWorkspaceTool crates.toCrates canonical)
      (tidy_chatBody crates.toCrates
        (if ((canonical.get "input").bind asArr).isSome then
          putField "input" (.arr (items.map Prod.fst)) canonical
        else canonical) tools transcript)
    refine ⟨⟨items, embedded, tools, transcript, change, hobject, hitems,
      htools, hprojection, hchecked, himages, hid, rfl, ?_, ?_⟩⟩
    · rw [hget "messages" (by decide), hbody.1, map_some, mapStrings,
        mapItems_eq_map]
    · rw [hget "tools" (by decide), hbody.2.1]
      split
      · rfl
      · rw [map_some, mapStrings, mapItems_eq_map]

/-- A request whose parts can be translated, and whose transcript passes its
checks, is prepared. -/
theorem exists_prepareChatRequest {crates : AdapterCrates}
    {profile : HarnessProfile} {replay : ReplayContext}
    {items : List (Json × ChatMessageProvenance)} {embedded tools : List Json}
    {projection : ChatProjection} (effort : Option String)
    (hobject : canonical.isObject = true)
    (hitems : chatInputItems crates.toCrates profile replay canonical =
      .ok (items, embedded))
    (htools : chatRequestTools crates.toCrates profile (requestTools canonical)
      embedded = .ok tools)
    (hprojection : chatTranscript crates.toCrates route.chatCapabilities
      (leadingSystem canonical tools) items
      (shouldReplayReasoning route.chatCapabilities replay) route.vision =
        .ok projection)
    (hchecked : checkChatTranscriptInvariants crates.toCrates projection
      route.chatCapabilities = .ok ()) :
    ∃ prepared, prepareChatRequest crates route profile replay effort canonical =
      .ok prepared := by
  simp only [prepareChatRequest, responsesToChatProjection, hobject, hitems,
    htools, hprojection, hchecked, bind, Except.bind, pure, Except.pure,
    Bool.not_true, Bool.false_eq_true, if_false, Except.ok.injEq, exists_eq']

end Vellum.Proxy
