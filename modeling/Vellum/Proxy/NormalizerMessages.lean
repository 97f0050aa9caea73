/-
The finished messages of a normalized stream.  They are held back until the
turn's phase is known and released at two places, before the completion and
when the stream ends.  Every accepted message is released once, in the order
of arrival.
-/
import Vellum.Proxy.Normalizer

namespace Vellum.Proxy

open List Option Json

/-- Restoring an item keeps whether it is a call, and changes calls only. -/
structure RestoredItem (item restored : Json) : Prop where
  call : isCallItem restored = isCallItem item
  other : isCallItem item = false → restored = item

section

variable (crates : Crates) {context : CodexToolContext} {item : Json}
  {fields : List (String × Json)}

theorem isCallItem_of_type {kind : String}
    (htype : item.get "type" = some (.str kind)) :
    isCallItem item = (kind = "function_call" || kind = "custom_tool_call" ||
      kind = "tool_search_call") := by
  rw [isCallItem, htype]
  rfl

theorem isCallItem_congr {left right : Json}
    (htype : left.get "type" = right.get "type") :
    isCallItem left = isCallItem right := by
  rw [isCallItem, isCallItem, htype]

theorem normalizeOfficialItemId_spec (hnodup : (fields.map Prod.fst).Nodup) :
    ((normalizeOfficialItemId crates fields).map Prod.fst).Nodup ∧
      ∀ key, key ≠ "id" →
        (Json.obj (normalizeOfficialItemId crates fields)).get key =
          (Json.obj fields).get key := by
  rw [normalizeOfficialItemId]
  split
  · split
    · refine ⟨nodup_insertField hnodup _ _, ?_⟩
      intro key hkey
      rw [get_insertField, if_neg hkey]
    · split
      · exact ⟨nodup_removeField hnodup _,
          fun key hkey => get_removeField hnodup hkey⟩
      · exact ⟨hnodup, fun _ _ => rfl⟩
  · exact ⟨hnodup, fun _ _ => rfl⟩

/-- An item that was given a type keeps it while its id is normalized and a
field is taken out. -/
theorem get_type_retyped (hnodup : (fields.map Prod.fst).Nodup) (kind : String)
    {name : String} (hname : "type" ≠ name) :
    (Json.obj (Json.removeField name (normalizeOfficialItemId crates
      (Json.insertField "type" (.str kind) fields)))).get "type" =
      some (.str kind) := by
  have hofficial := normalizeOfficialItemId_spec crates
    (nodup_insertField hnodup "type" (.str kind))
  rw [get_removeField hofficial.1 hname,
    hofficial.2 "type" (by decide), get_insertField, if_pos rfl]

theorem get_type_restoreToolSearch (hnodup : (fields.map Prod.fst).Nodup) :
    (Json.obj (CodexToolContext.restoreToolSearch crates fields)).get "type" =
      some (.str "tool_search_call") := by
  rw [CodexToolContext.restoreToolSearch, get_insertField,
    if_neg (by decide), get_insertField, if_neg (by decide)]
  exact get_type_retyped crates hnodup _ (by decide)

theorem get_type_restoreCustom (name : String)
    (hnodup : (fields.map Prod.fst).Nodup) :
    (Json.obj (CodexToolContext.restoreCustom crates name fields)).get "type" =
      some (.str "custom_tool_call") := by
  rw [CodexToolContext.restoreCustom, get_insertField,
    if_neg (by decide)]
  exact get_type_retyped crates hnodup _ (by decide)

theorem restoreOutputItem_of_not_restores
    (hrestores : context.restores item = false) :
    context.restoreOutputItem crates item = item := by
  cases item with
  | obj fields =>
    simp only [CodexToolContext.restoreOutputItem]
    split
    · rename_i htype
      split
      · rename_i name hname
        simp only [CodexToolContext.restores, Json.isObject, htype, hname,
          Bool.true_and, decide_true, any_some,
          Bool.or_eq_false_iff] at hrestores
        simp [hrestores.1, hrestores.2]
      · rfl
    · rfl
  | null | bool | num | str | arr => rfl

theorem isCallItem_of_restores (hrestores : context.restores item = true) :
    isCallItem item = true := by
  simp only [CodexToolContext.restores, Bool.and_eq_true,
    decide_eq_true_eq] at hrestores
  rw [isCallItem, hrestores.1.2]
  rfl

theorem isCallItem_restoreOutputItem (htidy : item.Tidy)
    (hrestores : context.restores item = true) :
    isCallItem (context.restoreOutputItem crates item) = true := by
  have hcall := isCallItem_of_restores hrestores
  cases item with
  | obj fields =>
    have hnodup := htidy fields rfl
    simp only [CodexToolContext.restoreOutputItem]
    split
    · split
      · split
        · rw [isCallItem_of_type (get_type_restoreToolSearch crates hnodup)]
          rfl
        · split
          · rw [isCallItem_of_type (get_type_restoreCustom crates _ hnodup)]
            rfl
          · exact hcall
      · exact hcall
    · exact hcall
  | null | bool | num | str | arr => exact hcall

theorem restoredItem_namespace (namespaces : NamespaceToolContext)
    {restored : Json} (hrestored : RestoredItem item restored) :
    RestoredItem item (namespaces.restoreItem restored) := by
  have htype := get_restoreItem namespaces restored
    (by decide : "type" ≠ "name") (by decide)
  constructor
  · rw [isCallItem_congr htype, hrestored.call]
  · intro hother
    rw [hrestored.other hother]
    cases item with
    | obj fields =>
      rw [NamespaceToolContext.restoreItem, if_neg]
      intro hfunction
      rw [isCallItem, hfunction] at hother
      exact absurd hother (by decide)
    | null | bool | num | str | arr => rfl

end

namespace ThirdPartySseNormalizer

section

variable (crates : Crates) (normalizer : ThirdPartySseNormalizer)
  {heuristics : Bool} (event : String) (value : Json) {item : Json}
  {frames : List Frame}

theorem restoredItem_restoreItemAt (index : Nat) (htidy : item.Tidy) :
    RestoredItem item (restoreItemAt crates normalizer event index item).2 := by
  simp only [restoreItemAt]
  apply restoredItem_namespace
  generalize hnoted : (if hasVisiblePart (item.get "content") = true then
    { normalizer with sawVisibleText := true } else normalizer) = noted
  split
  · rename_i hrestores
    have hcall := isCallItem_of_restores hrestores
    have hkept := isCallItem_restoreOutputItem crates htidy hrestores
    split
    · exact ⟨hkept.trans hcall.symm,
        fun hother => absurd (hcall.symm.trans hother) (by decide)⟩
    · refine ⟨?_, fun hother =>
        absurd (hcall.symm.trans hother) (by decide)⟩
      rw [hcall, ← hkept]
      apply isCallItem_congr
      simp only [restoreCustomItem]
      split
      · split
        · rename_i hitem
          rw [hitem, get_insertField, if_neg (by decide)]
        · rfl
      · rfl
  · rename_i hrestores
    rw [Bool.not_eq_true] at hrestores
    rw [restoreOutputItem_of_not_restores crates hrestores]
    exact ⟨rfl, fun _ => rfl⟩

theorem pointer_item_type :
    (value.pointer ["item", "type"]).bind Json.asStr =
      ((value.get "item").bind (Json.get "type")).bind Json.asStr := by
  cases value with
  | obj fields =>
    rw [Json.pointer]
    cases (Json.obj fields).get "item" with
    | none => rfl
    | some item =>
      cases item with
      | obj inner =>
        rw [bind_some, bind_some, Json.pointer]
        cases (Json.obj inner).get "type" <;> rfl
      | null | bool | num | str | arr => rfl
  | null | bool | num | str | arr => rfl

theorem isMessageDone_iff :
    isMessageDone event value = true ↔
      event = "response.output_item.done" ∧ ∃ item,
        value.get "item" = some item ∧
          (item.get "type").bind Json.asStr = some "message" := by
  rw [isMessageDone, pointer_item_type, Bool.and_eq_true, decide_eq_true_eq,
    decide_eq_true_eq]
  cases value.get "item" with
  | none => simp
  | some item => simp

theorem isCallItem_message
    (htype : (item.get "type").bind Json.asStr = some "message") :
    isCallItem item = false := by
  rw [isCallItem, htype]
  rfl

/-- A value with its item restored. -/
structure RestoredValue (event : String) (value restored : Json) : Prop where
  calls : sseValueContainsFunctionCall restored =
    sseValueContainsFunctionCall value
  message : isMessageDone event restored = isMessageDone event value
  same : isMessageDone event value = true → restored = value

theorem RestoredValue.refl : RestoredValue event value value :=
  ⟨rfl, rfl, fun _ => rfl⟩

/-- The item of a value is an object with field names that differ. -/
def TidyItem (value : Json) : Prop :=
  ∀ item, value.get "item" = some item → item.Tidy

theorem restoredValue_modify {value restored : Json}
    (hitem : value.get "item" = some item)
    (hrestored : RestoredItem item restored) :
    RestoredValue event value (value.modify "item" fun _ => restored) := by
  have hget : (value.modify "item" fun _ => restored).get "item" =
      some restored := by
    rw [get_modify, if_pos rfl, hitem]
    rfl
  have hresponse : (value.modify "item" fun _ => restored).get "response" =
      value.get "response" := by
    rw [get_modify, if_neg (by decide)]
  have hmessage : (restored.get "type").bind Json.asStr = some "message" ↔
      (item.get "type").bind Json.asStr = some "message" := by
    constructor
    · intro hrestoredType
      have hother := isCallItem_message hrestoredType
      rw [hrestored.call] at hother
      rw [hrestored.other hother] at hrestoredType
      exact hrestoredType
    · intro htype
      rw [hrestored.other (isCallItem_message htype)]
      exact htype
  constructor
  · simp only [sseValueContainsFunctionCall]
    rw [hget, hresponse, hitem, any_some, any_some,
      hrestored.call]
  · rw [Bool.eq_iff_iff, isMessageDone_iff, isMessageDone_iff, hget, hitem]
    simp only [some.injEq, exists_eq_left']
    rw [hmessage]
  · intro hdone
    obtain ⟨-, other, hother, htype⟩ :=
      (isMessageDone_iff event value).mp hdone
    obtain rfl := some.inj (hitem.symm.trans hother)
    rw [hrestored.other (isCallItem_message htype)]
    cases value with
    | obj fields =>
      rw [Json.modify, hitem]
      exact congrArg Json.obj (insertField_of_get hitem)
    | null | bool | num | str | arr => rfl

theorem restoredValue_restoreItem {value : Json} (htidy : TidyItem value) :
    RestoredValue event value
      (restoreItem crates normalizer event value).2 := by
  rw [restoreItem]
  split
  · rename_i item hitem
    split
    · exact restoredValue_modify event hitem
        (restoredItem_restoreItemAt crates normalizer event _
          (htidy item hitem))
    · exact RestoredValue.refl event value
  · exact RestoredValue.refl event value

/-- The message a frame finishes. -/
def frameMessage : Frame → Option Json
  | .event name value =>
    if isMessageDone name value then some value else none
  | .raw _ => none

/-- A frame that neither finishes a message nor completes the response. -/
def IsOther (frame : Frame) : Prop :=
  frameMessage frame = none ∧
    ∀ value, frame ≠ .event "response.completed" value

/-- What handling an event does to the flag of the turn. -/
structure FlagStep (before after : ThirdPartySseNormalizer) (event : String)
    (value : Json) : Prop where
  heuristics : after.payloadReplayHeuristics = before.payloadReplayHeuristics
  seen : after.seenSequenceNumbers = before.seenSequenceNumbers
  kept : before.sawFunctionCall = true → after.sawFunctionCall = true
  source : after.sawFunctionCall = true → before.sawFunctionCall = true ∨
    sseValueContainsFunctionCall value = true
  noted : isPartEvent event = false →
    sseValueContainsFunctionCall value = true → after.sawFunctionCall = true

/-- What handling an event does to the messages held back. -/
inductive QueueStep (before after : ThirdPartySseNormalizer) (event : String)
    (value : Json) (frames : List Frame) : Prop
  | passed (message : isMessageDone event value = false)
      (pending : after.pendingMessageDone = before.pendingMessageDone)
      (other : ∀ frame ∈ frames, IsOther frame)
  | held (message : isMessageDone event value = true)
      (pending : after.pendingMessageDone =
        before.pendingMessageDone ++ [value])
      (silent : frames = [])
  | released (completed : Json)
      (message : isMessageDone event value = false)
      (pending : after.pendingMessageDone = [])
      (released : frames = before.pendingMessageDone.map (fun pending =>
          .event "response.output_item.done"
            (setItemPhase after.phase pending)) ++
        [.event "response.completed" completed])

theorem frameMessage_of_name {name : String}
    (hname : name ≠ "response.output_item.done") (value : Json) :
    frameMessage (.event name value) = none := by
  apply if_neg
  intro hdone
  exact hname ((isMessageDone_iff name value).mp hdone).1

theorem isOther_of_name {name : String}
    (hdone : name ≠ "response.output_item.done")
    (hcompleted : name ≠ "response.completed") (value : Json) :
    IsOther (.event name value) := by
  refine ⟨frameMessage_of_name hdone value, ?_⟩
  intro other hother
  exact hcompleted (Frame.event.inj hother).1

theorem outputItems_mapOutput (change : Json → Json) (response : Json) :
    outputItems (mapOutput change response) =
      (outputItems response).map change := by
  rw [outputItems, mapOutput, get_modify, if_pos rfl, outputItems]
  cases response.get "output" with
  | none => rfl
  | some output => cases output <;> rfl

theorem outputItems_restoreResponse (namespaces : NamespaceToolContext)
    (response : Json) :
    outputItems (namespaces.restoreResponse response) =
      (outputItems response).map namespaces.restoreItem := by
  cases response with
  | obj fields =>
    simp only [NamespaceToolContext.restoreResponse]
    split
    · rename_i output houtput
      rw [outputItems, get_insertField, if_pos rfl, outputItems,
        houtput]
      rfl
    · rename_i hnone
      rw [outputItems, hnone]
      rfl
  | null | bool | num | str | arr => rfl

theorem containsCall_of_restored (context : CodexToolContext)
    (namespaces : NamespaceToolContext) {response : Json}
    (hrestored : responseContainsFunctionCall (namespaces.restoreResponse
      (context.restoreResponseTools crates response)) = true) :
    responseContainsFunctionCall response = true := by
  rw [responseContainsFunctionCall, outputItems_restoreResponse,
    CodexToolContext.restoreResponseTools, outputItems_mapOutput,
    List.any_map, List.any_map, List.any_eq_true] at hrestored
  obtain ⟨item, hmem, hcall⟩ := hrestored
  rw [responseContainsFunctionCall, List.any_eq_true]
  refine ⟨item, hmem, ?_⟩
  have htype := get_restoreItem namespaces
    (context.restoreOutputItem crates item)
    (by decide : "type" ≠ "name") (by decide)
  have hbare : isCallItem (context.restoreOutputItem crates item) = true :=
    (isCallItem_congr htype).symm.trans hcall
  by_cases hrestores : context.restores item = true
  · exact isCallItem_of_restores hrestores
  · rw [Bool.not_eq_true] at hrestores
    rw [restoreOutputItem_of_not_restores crates hrestores] at hbare
    exact hbare

theorem sawFunctionCall_noteCall :
    (normalizer.noteCall value).sawFunctionCall =
      (normalizer.sawFunctionCall || sseValueContainsFunctionCall value) := by
  rw [noteCall]
  split
  · rename_i hcall
    rw [hcall, Bool.or_true]
  · rename_i hcall
    rw [Bool.not_eq_true] at hcall
    rw [hcall, Bool.or_false]

theorem sawFunctionCall_noteResponse :
    (noteResponse crates (normalizer.noteCall value) value).1.sawFunctionCall =
      (normalizer.sawFunctionCall || sseValueContainsFunctionCall value) := by
  rw [← sawFunctionCall_noteCall, noteResponse]
  split
  · rename_i response hresponse
    have hseen : responseContainsFunctionCall response = true →
        (normalizer.noteCall value).sawFunctionCall = true := by
      intro hcall
      rw [sawFunctionCall_noteCall, sseValueContainsFunctionCall, hresponse,
        any_some, hcall, Bool.or_true, Bool.or_true]
    rw [Bool.eq_iff_iff, Bool.or_eq_true]
    refine ⟨fun hor => hor.elim id fun hcall => ?_, Or.inl⟩
    exact hseen (containsCall_of_restored crates _ _ hcall)
  · rfl

theorem pending_noteCall :
    (normalizer.noteCall value).pendingMessageDone =
      normalizer.pendingMessageDone := by
  rw [noteCall]
  split <;> rfl

theorem pending_noteResponse :
    (noteResponse crates normalizer value).1.pendingMessageDone =
      normalizer.pendingMessageDone := by
  rw [noteResponse]
  split <;> rfl

/-- An event that reaches `forward`, its item restored. -/
theorem forward_step {value restored : Json}
    (hrestored : RestoredValue event value restored) :
    FlagStep normalizer (forward crates normalizer event restored).1 event
        value ∧
      QueueStep normalizer (forward crates normalizer event restored).1 event
        value (forward crates normalizer event restored).2 := by
  have hsettings := forward_settings crates normalizer event restored
  have hflag (hcalls : (forward crates normalizer event
      restored).1.sawFunctionCall =
      (normalizer.sawFunctionCall || sseValueContainsFunctionCall restored)) :
      FlagStep normalizer (forward crates normalizer event restored).1 event
        value := by
    rw [hrestored.calls] at hcalls
    refine ⟨hsettings.1, hsettings.2, ?_, ?_, ?_⟩
    · intro hbefore
      rw [hcalls, hbefore, Bool.true_or]
    · intro hafter
      rw [hcalls, Bool.or_eq_true] at hafter
      exact hafter
    · intro _ hcall
      rw [hcalls, hcall, Bool.or_true]
  rcases forward_cases crates normalizer event restored with
    ⟨hmessage, hforward⟩ | ⟨hmessage, hevent, hforward⟩ |
    ⟨hmessage, hevent, hforward⟩
  · rw [hrestored.message] at hmessage
    refine ⟨hflag ?_, .held hmessage ?_ ?_⟩
    · rw [hforward]
      exact sawFunctionCall_noteCall normalizer restored
    · rw [hforward, hrestored.same hmessage]
      exact congrArg (· ++ [value]) (pending_noteCall normalizer value)
    · rw [hforward]
  · rw [hrestored.message] at hmessage
    have hcalls := sawFunctionCall_noteResponse crates normalizer restored
    have hpending := (pending_noteResponse crates
      (normalizer.noteCall restored) restored).trans
      (pending_noteCall normalizer restored)
    rcases complete_cases crates (normalizer.noteCall restored) event restored
      with ⟨failure, hcomplete⟩ | ⟨completed, hcomplete⟩
    · refine ⟨hflag ?_, .passed hmessage ?_ ?_⟩
      · rw [hforward, hcomplete]
        exact hcalls
      · rw [hforward, hcomplete]
        exact hpending
      · rw [hforward, hcomplete]
        intro frame hframe
        obtain rfl := mem_singleton.mp hframe
        exact isOther_of_name (by decide) (by decide) _
    · refine ⟨hflag ?_, .released completed hmessage ?_ ?_⟩
      · rw [hforward, hcomplete]
        exact hcalls
      · rw [hforward, hcomplete]
      · rw [hforward, hcomplete, ← hpending, hevent]
        rfl
  · rw [hrestored.message] at hmessage
    refine ⟨hflag ?_, .passed hmessage ?_ ?_⟩
    · rw [hforward]
      exact sawFunctionCall_noteCall normalizer restored
    · rw [hforward]
      exact pending_noteCall normalizer restored
    · rw [hforward]
      intro frame hframe
      obtain rfl := mem_singleton.mp hframe
      refine ⟨if_neg ?_, fun other hother => hevent (Frame.event.inj hother).1⟩
      rw [hrestored.message, hmessage]
      exact Bool.false_ne_true

theorem handle_step {value : Json} (htidy : TidyItem value) :
    FlagStep normalizer (handle crates normalizer event value).1 event
        value ∧
      QueueStep normalizer (handle crates normalizer event value).1 event
        value (handle crates normalizer event value).2 := by
  rcases handle_cases crates normalizer event value with
    ⟨hpart, hconsumed⟩ | ⟨before, hbefore, hforward⟩
  · have hmessage : isMessageDone event value = false := by
      rw [Bool.eq_false_iff]
      intro hdone
      rw [((isMessageDone_iff event value).mp hdone).1] at hpart
      exact absurd hpart (by decide)
    constructor
    · refine ⟨hconsumed.same.heuristics, hconsumed.same.seen, ?_, ?_, ?_⟩
      · intro hcalls
        rw [hconsumed.same.calls, hcalls]
      · intro hcalls
        rw [hconsumed.same.calls] at hcalls
        exact Or.inl hcalls
      · intro hother
        rw [hpart] at hother
        cases hother
    · refine .passed hmessage hconsumed.same.pending ?_
      intro frame hframe
      obtain ⟨value, rfl | rfl⟩ := hconsumed.frames frame hframe
      · exact isOther_of_name (by decide) (by decide) value
      · exact isOther_of_name (by decide) (by decide) value
  · have hsame := hbefore.trans
      (SameTurn.restoreItem crates before event value)
    obtain ⟨hflag, hqueue⟩ := forward_step crates
      (restoreItem crates before event value).1 event
      (restoredValue_restoreItem crates before event htidy)
    rw [hforward]
    constructor
    · refine ⟨hflag.heuristics.trans hsame.heuristics,
        hflag.seen.trans hsame.seen, ?_, ?_, hflag.noted⟩
      · rw [← hsame.calls]
        exact hflag.kept
      · rw [← hsame.calls]
        exact hflag.source
    · cases hqueue with
      | passed message pending other =>
        exact .passed message (pending.trans hsame.pending) other
      | held message pending silent =>
        rw [hsame.pending] at pending
        exact .held message pending silent
      | released completed message pending released =>
        rw [hsame.pending] at released
        exact .released completed message pending released

/-- The items of a cleaned event have field names that differ when the event
has. -/
theorem tidyItem_cleaned {value : Json} (hdistinct : value.distinct = true)
    (heuristics : Bool) : TidyItem (cleaned heuristics value) := by
  intro item hitem
  cases value with
  | obj fields =>
    obtain ⟨opened, hopened, hnames⟩ : ∃ opened,
        dropDoomLoopCheck (.obj fields) = .obj opened ∧
          opened.map Prod.fst = fields.map Prod.fst :=
      modify_obj "response" _ fields
    have hnodup : (opened.map Prod.fst).Nodup := by
      rw [hnames]
      exact Json.Tidy.of_distinct hdistinct fields rfl
    have hget := get_normalizeReadable hnodup
      (by decide : "item" ∉ reasoningNames)
    rw [normalizeReadableReasoning, ← hopened,
      get_dropDoomLoopCheck (by decide)] at hget
    rw [cleaned, hopened, normalizeReadableReasoning,
      stripProviderControlTokens, get_stripObject _ _ (by decide)
      (by decide), get_stripFields, ← hopened, hget, Option.map_map] at hitem
    obtain ⟨source, hsource, rfl⟩ := map_eq_some_iff.mp hitem
    have htidy := Json.Tidy.of_distinct (distinct_get hdistinct hsource)
    exact tidy_strip heuristics (tidy_normalizeReadable htidy)
  | arr items =>
    rw [cleaned, dropDoomLoopCheck, Json.modify, normalizeReadableReasoning,
      stripProviderControlTokens] at hitem
    · cases hitem
    · intro fields hfields
      cases hfields
  | null | bool | num | str => cases hitem

/-- The blocks of a stream. -/
abbrev Blocks := List (List Char)

/-- The pairs seen and the events accepted so far. -/
abbrev Reading := List (String × Nat) × List Upstream

/-- A block adds its event, cleaned, when it is a valid event of the protocol
that is neither private nor a replay. -/
def readBlock (crates : Crates) (heuristics : Bool) (reading : Reading)
    (block : List Char) : Reading :=
  match parseSseValue crates block with
  | none => reading
  | some (event, value) =>
    if (validateKnownSseEvent event value).isOk ∧
        isDoomLoopCheck event value = false ∧
        ∀ pair ∈ reading.1, identity event value ≠ some pair then
      ((identity event value).toList ++ reading.1,
        reading.2 ++ [(event, cleaned heuristics value)])
    else reading

def readBlocks (crates : Crates) (heuristics : Bool) (blocks : Blocks) :
    Reading :=
  blocks.foldl (readBlock crates heuristics) ([], [])

/-- The events accepted from a stream, in the order of arrival. -/
def accepted (crates : Crates) (heuristics : Bool) (blocks : Blocks) :
    List Upstream :=
  (readBlocks crates heuristics blocks).2

/-- The finished messages among them. -/
def messageArrivals (crates : Crates) (heuristics : Bool) (blocks : Blocks) :
    List Json :=
  (accepted crates heuristics blocks).filterMap fun upstream =>
    frameMessage (.event upstream.1 upstream.2)

/-- A tool call was seen in the stream. -/
def CallSeen (crates : Crates) (heuristics : Bool) (blocks : Blocks) : Prop :=
  ∃ upstream ∈ accepted crates heuristics blocks,
    sseValueContainsFunctionCall upstream.2 = true

/-- A tool call was seen in an event of its own: not in a piece of a text or
of a call's arguments, which carry none in the protocol. -/
def CallAnnounced (crates : Crates) (heuristics : Bool) (blocks : Blocks) :
    Prop :=
  ∃ upstream ∈ accepted crates heuristics blocks,
    isPartEvent upstream.1 = false ∧
      sseValueContainsFunctionCall upstream.2 = true

/-- A frame, and the blocks pushed when it went out. -/
abbrev Logged := Frame × Blocks

/-- The frames of a stream up to its end. -/
def emitted (crates : Crates) (normalizer : ThirdPartySseNormalizer)
    (pushed : Blocks) : Blocks → ThirdPartySseNormalizer × List Logged
  | [] => (normalizer, [])
  | block :: blocks =>
    match normalizer.pushBlock crates block with
    | .ok result =>
      let rest := emitted crates result.1 (pushed ++ [block]) blocks
      (rest.1, result.2.map (·, pushed ++ [block]) ++ rest.2)
    | .error _ => emitted crates normalizer (pushed ++ [block]) blocks

/-- Every frame of a stream that is finished behind its last block. -/
def streamLog (crates : Crates) (normalizer : ThirdPartySseNormalizer)
    (blocks : Blocks) : List Logged :=
  let result := emitted crates normalizer [] blocks
  result.2 ++ result.1.finish.2.map (·, blocks)

/-- The messages of a log. -/
def messages (log : List Logged) : List (Json × Blocks) :=
  log.filterMap fun logged =>
    (frameMessage logged.1).map fun value => (value, logged.2)

/-- The phase an upstream message brings itself. -/
def ownPhase (value : Json) : Option Json :=
  ((value.get "item").bind (Json.get "phase")).filter (· ≠ .null)

/-- A message went out: as it arrived, with its own phase or else the phase of
the turn so far, which is `commentary` if a tool call was seen before. -/
def Released (crates : Crates) (heuristics : Bool)
    (emission : Json × Blocks) (arrival : Json) : Prop :=
  ∃ phase, emission.1 = setItemPhase phase arrival ∧
    (emission.1.get "item").bind (Json.get "phase") =
      some ((ownPhase arrival).getD (.str phase)) ∧
    (phase = "commentary" ∧ CallSeen crates heuristics emission.2 ∨
      phase = "final_answer" ∧ ¬ CallAnnounced crates heuristics emission.2)

theorem messages_append (log more : List Logged) :
    messages (log ++ more) = messages log ++ messages more :=
  filterMap_append ..

theorem messages_of_isOther (pushed : Blocks)
    (hother : ∀ frame ∈ frames, IsOther frame) :
    messages (frames.map (·, pushed)) = [] := by
  rw [messages, filterMap_eq_nil_iff]
  intro logged hlogged
  obtain ⟨frame, hframe, rfl⟩ := List.mem_map.mp hlogged
  rw [(hother frame hframe).1]
  rfl

theorem setItemPhase_message {value : Json}
    (hmessage : isMessageDone "response.output_item.done" value = true)
    (phase : String) :
    isMessageDone "response.output_item.done" (setItemPhase phase value) =
        true ∧
      ((setItemPhase phase value).get "item").bind (Json.get "phase") =
        some ((ownPhase value).getD (.str phase)) := by
  obtain ⟨-, item, hitem, htype⟩ := (isMessageDone_iff _ value).mp hmessage
  have hset : (setItemPhase phase value).get "item" =
      some (setPhase phase item) := by
    rw [setItemPhase, get_modify, if_pos rfl, hitem]
    rfl
  cases item with
  | obj fields =>
    by_cases hnull : ((Json.obj fields).get "phase").all (· = .null) = true
    · have hphase : setPhase phase (.obj fields) =
          .obj (Json.insertField "phase" (.str phase) fields) := by
        rw [setPhase, if_pos ⟨htype, hnull⟩]
      rw [hphase] at hset
      constructor
      · rw [isMessageDone_iff]
        refine ⟨rfl, _, hset, ?_⟩
        rw [get_insertField, if_neg (by decide)]
        exact htype
      · rw [hset, bind_some, get_insertField, if_pos rfl,
          ownPhase, hitem, bind_some]
        cases hown : (Json.obj fields).get "phase" with
        | none => rfl
        | some own =>
          have hempty : own = .null := by
            rw [hown] at hnull
            simpa using hnull
          rw [hempty]
          rfl
    · have hphase : setPhase phase (.obj fields) = .obj fields := by
        rw [setPhase, if_neg fun hboth => hnull hboth.2]
      rw [hphase] at hset
      constructor
      · rw [isMessageDone_iff]
        exact ⟨rfl, _, hset, htype⟩
      · rw [hset, bind_some, ownPhase, hitem, bind_some]
        cases hown : (Json.obj fields).get "phase" with
        | none =>
          rw [hown] at hnull
          exact absurd rfl hnull
        | some own =>
          have hset : own ≠ .null := by
            intro hempty
            rw [hown, hempty] at hnull
            exact hnull (by decide)
          simp [Option.filter, hset]
  | null | bool | num | str | arr => cases htype

/-- Every completion in a log comes behind the messages that arrived before
it. -/
def CompletesLast (crates : Crates) (heuristics : Bool)
    (log : List Logged) : Prop :=
  ∀ front value before back,
    log = front ++ (.event "response.completed" value, before) :: back →
      List.Forall₂ (Released crates heuristics) (messages front)
        (messageArrivals crates heuristics before)

/-- What holds of a normalizer, the blocks pushed so far and the log. -/
structure Kept (crates : Crates) (heuristics : Bool)
    (normalizer : ThirdPartySseNormalizer) (pushed : Blocks)
    (log : List Logged) : Prop where
  setting : normalizer.payloadReplayHeuristics = heuristics
  seen : normalizer.seenSequenceNumbers =
    (readBlocks crates heuristics pushed).1
  source : normalizer.sawFunctionCall = true →
    CallSeen crates heuristics pushed
  noted : CallAnnounced crates heuristics pushed →
    normalizer.sawFunctionCall = true
  released : ∃ released,
    messageArrivals crates heuristics pushed =
        released ++ normalizer.pendingMessageDone ∧
      List.Forall₂ (Released crates heuristics) (messages log) released
  completed : CompletesLast crates heuristics log

theorem kept_new (heuristics : Bool) (request : Json) :
    Kept crates heuristics (new request heuristics) [] [] := by
  refine ⟨rfl, rfl, ?_, ?_, ⟨[], rfl, List.Forall₂.nil⟩, ?_⟩
  · intro hcalls
    cases hcalls
  · rintro ⟨upstream, hmem, -⟩
    cases hmem
  · intro front value before back hlog
    cases front <;> cases hlog

/-- The messages held back have been finished upstream. -/
theorem isMessageDone_of_arrival {crates : Crates} {blocks : Blocks}
    {value : Json} (hvalue : value ∈ messageArrivals crates heuristics blocks) :
    isMessageDone "response.output_item.done" value = true := by
  obtain ⟨upstream, -, hmessage⟩ := mem_filterMap.mp hvalue
  rw [frameMessage] at hmessage
  split at hmessage
  · rename_i hdone
    obtain rfl := some.inj hmessage
    rw [← ((isMessageDone_iff _ _).mp hdone).1]
    exact hdone
  · cases hmessage

theorem released_frames {crates : Crates} {normalizer : ThirdPartySseNormalizer}
    {pushed : Blocks}
    (hsource : normalizer.sawFunctionCall = true →
      CallSeen crates heuristics pushed)
    (hnoted : CallAnnounced crates heuristics pushed →
      normalizer.sawFunctionCall = true) {pending : List Json}
    (hpending : ∀ value ∈ pending,
      isMessageDone "response.output_item.done" value = true) :
    List.Forall₂ (Released crates heuristics)
      (messages ((pending.map fun value =>
        Frame.event "response.output_item.done"
          (setItemPhase normalizer.phase value)).map (·, pushed)))
      pending := by
  induction pending with
  | nil => exact List.Forall₂.nil
  | cons value pending ih =>
    obtain ⟨hmessage, hphase⟩ := setItemPhase_message
      (hpending value mem_cons_self) normalizer.phase
    have hfirst : messages ([(Frame.event "response.output_item.done"
        (setItemPhase normalizer.phase value), pushed)] : List Logged) =
        [(setItemPhase normalizer.phase value, pushed)] := by
      rw [messages, filterMap_cons, frameMessage, if_pos hmessage]
      rfl
    have hcons := messages_append
      [(Frame.event "response.output_item.done"
        (setItemPhase normalizer.phase value), pushed)]
      ((pending.map fun value => Frame.event "response.output_item.done"
        (setItemPhase normalizer.phase value)).map (·, pushed))
    rw [hfirst] at hcons
    rw [map_cons, map_cons]
    refine hcons ▸ List.Forall₂.cons ?_
      (ih fun other hother => hpending other (mem_cons_of_mem _ hother))
    refine ⟨normalizer.phase, rfl, hphase, ?_⟩
    rw [phase]
    by_cases hcalls : normalizer.sawFunctionCall = true
    · rw [if_pos hcalls]
      exact Or.inl ⟨rfl, hsource hcalls⟩
    · rw [if_neg hcalls]
      exact Or.inr ⟨rfl, fun hannounced => hcalls (hnoted hannounced)⟩

/-- A longer log: its completions are those of the front and of the new
frames. -/
theorem completesLast_append {crates : Crates} {log more : List Logged}
    (hlog : CompletesLast crates heuristics log)
    (hmore : ∀ front value before back,
      more = front ++ (.event "response.completed" value, before) :: back →
        List.Forall₂ (Released crates heuristics) (messages (log ++ front))
          (messageArrivals crates heuristics before)) :
    CompletesLast crates heuristics (log ++ more) := by
  intro front value before back hsplit
  rcases append_eq_append_iff.mp hsplit with
    ⟨middle, rfl, hmiddle⟩ | ⟨middle, rfl, hmiddle⟩
  · exact hmore middle value before back hmiddle
  · cases middle with
    | nil =>
      rw [append_nil] at hmore
      simpa using hmore [] value before back hmiddle.symm
    | cons logged middle =>
      obtain ⟨rfl, -⟩ := List.cons.inj hmiddle
      exact hlog front value before middle rfl

theorem completesLast_append_others {crates : Crates} {log : List Logged}
    (hlog : CompletesLast crates heuristics log) (pushed : Blocks)
    (hother : ∀ frame ∈ frames,
      ∀ value, frame ≠ .event "response.completed" value) :
    CompletesLast crates heuristics (log ++ frames.map (·, pushed)) := by
  apply completesLast_append hlog
  intro front value before back hsplit
  have hmem : (Frame.event "response.completed" value, before) ∈
      frames.map (·, pushed) := by
    rw [hsplit]
    exact mem_append_right _ mem_cons_self
  obtain ⟨frame, hframe, hlogged⟩ := List.mem_map.mp hmem
  exact absurd (Prod.mk.inj hlogged).1 (hother frame hframe value)

/-- A completion behind every message that arrived. -/
theorem completesLast_append_completed {crates : Crates} {log : List Logged}
    (hlog : CompletesLast crates heuristics log) (completed : Json)
    {pushed : Blocks}
    (hall : List.Forall₂ (Released crates heuristics) (messages log)
      (messageArrivals crates heuristics pushed)) :
    CompletesLast crates heuristics
      (log ++ [(.event "response.completed" completed, pushed)]) := by
  apply completesLast_append hlog
  intro front value before back hsplit
  cases front with
  | nil =>
    obtain ⟨hlogged, -⟩ := List.cons.inj hsplit
    rw [append_nil, ← (Prod.mk.inj hlogged).2]
    exact hall
  | cons logged front =>
    obtain ⟨-, hnil⟩ := List.cons.inj hsplit
    exact absurd hnil.symm (append_ne_nil_of_right_ne_nil _
      (cons_ne_nil _ _))

theorem readBlocks_append (heuristics : Bool) (pushed : Blocks)
    (block : List Char) :
    readBlocks crates heuristics (pushed ++ [block]) =
      readBlock crates heuristics (readBlocks crates heuristics pushed)
        block := by
  rw [readBlocks, foldl_append]
  rfl

/-- A block that adds no event, and whose frames are not of interest. -/
theorem kept_ignored {crates : Crates} {before after : ThirdPartySseNormalizer}
    {pushed : Blocks} {log : List Logged} {block : List Char}
    (hkept : Kept crates heuristics before pushed log)
    (hread : readBlocks crates heuristics (pushed ++ [block]) =
      readBlocks crates heuristics pushed) (hsame : SameTurn before after)
    (hother : ∀ frame ∈ frames, IsOther frame) :
    Kept crates heuristics after (pushed ++ [block])
      (log ++ frames.map (·, pushed ++ [block])) := by
  have haccepted : accepted crates heuristics (pushed ++ [block]) =
      accepted crates heuristics pushed := congrArg Prod.snd hread
  have harrivals : messageArrivals crates heuristics (pushed ++ [block]) =
      messageArrivals crates heuristics pushed := by
    rw [messageArrivals, haccepted]
    rfl
  obtain ⟨released, hreleased, hmessages⟩ := hkept.released
  refine ⟨hsame.heuristics.trans hkept.setting, ?_, ?_, ?_,
    ⟨released, ?_, ?_⟩, ?_⟩
  · rw [hread, hsame.seen, hkept.seen]
  · rw [hsame.calls, CallSeen, haccepted]
    exact hkept.source
  · rw [hsame.calls, CallAnnounced, haccepted]
    exact hkept.noted
  · rw [harrivals, hsame.pending, hreleased]
  · rw [messages_append, messages_of_isOther _ hother, append_nil]
    exact hmessages
  · exact completesLast_append_others hkept.completed _
      fun frame hframe => (hother frame hframe).2

end

section Handled

variable {crates : Crates} {heuristics : Bool}
  {before middle after : ThirdPartySseNormalizer} {pushed : Blocks}
  {log : List Logged} {block : List Char} {event : String}
  {value cleaned : Json}

theorem messageArrivals_snoc
    (hevents : accepted crates heuristics (pushed ++ [block]) =
      accepted crates heuristics pushed ++ [(event, cleaned)]) :
    messageArrivals crates heuristics (pushed ++ [block]) =
      messageArrivals crates heuristics pushed ++
        (frameMessage (.event event cleaned)).toList := by
  rw [messageArrivals, hevents, filterMap_append]
  rfl

/-- A flag that is set behind the block has a call behind it. -/
theorem callSeen_snoc (hkept : Kept crates heuristics before pushed log)
    (hevents : accepted crates heuristics (pushed ++ [block]) =
      accepted crates heuristics pushed ++ [(event, cleaned)])
    (haccepted : Accepted before middle event value)
    (hflag : FlagStep middle after event cleaned)
    (hcalls : after.sawFunctionCall = true) :
    CallSeen crates heuristics (pushed ++ [block]) := by
  rw [CallSeen, hevents]
  rcases hflag.source hcalls with hcalls | hcall
  · rw [haccepted.calls] at hcalls
    obtain ⟨upstream, hmem, hcall⟩ := hkept.source hcalls
    exact ⟨upstream, mem_append_left _ hmem, hcall⟩
  · exact ⟨_, mem_append_right _ mem_cons_self, hcall⟩

/-- A call that is announced up to the block has set the flag. -/
theorem noted_snoc (hkept : Kept crates heuristics before pushed log)
    (hevents : accepted crates heuristics (pushed ++ [block]) =
      accepted crates heuristics pushed ++ [(event, cleaned)])
    (haccepted : Accepted before middle event value)
    (hflag : FlagStep middle after event cleaned)
    (hannounced : CallAnnounced crates heuristics (pushed ++ [block])) :
    after.sawFunctionCall = true := by
  rw [CallAnnounced, hevents] at hannounced
  obtain ⟨upstream, hmem, hpart, hcall⟩ := hannounced
  rcases mem_append.mp hmem with hmem | hmem
  · apply hflag.kept
    rw [haccepted.calls]
    exact hkept.noted ⟨upstream, hmem, hpart, hcall⟩
  · obtain rfl := mem_singleton.mp hmem
    exact hflag.noted hpart hcall

/-- Messages that are let go complete nothing by themselves. -/
theorem completesLast_append_done {messages : List Json} {phase : String}
    (hlog : CompletesLast crates heuristics log) (blocks : Blocks) :
    CompletesLast crates heuristics
      (log ++ (messages.map fun value =>
        Frame.event "response.output_item.done"
          (setItemPhase phase value)).map (·, blocks)) := by
  apply completesLast_append_others hlog
  intro frame hframe completed hcompleted
  obtain ⟨value, -, rfl⟩ := List.mem_map.mp hframe
  exact absurd (Frame.event.inj hcompleted).1 (by decide)

theorem kept_handled (hkept : Kept crates heuristics before pushed log)
    (hread : readBlocks crates heuristics (pushed ++ [block]) =
      ((identity event value).toList ++
          (readBlocks crates heuristics pushed).1,
        (readBlocks crates heuristics pushed).2 ++ [(event, cleaned)]))
    (haccepted : Accepted before middle event value)
    (hflag : FlagStep middle after event cleaned) {frames : List Frame}
    (hqueue : QueueStep middle after event cleaned frames) :
    Kept crates heuristics after (pushed ++ [block])
      (log ++ frames.map (·, pushed ++ [block])) := by
  have hevents : accepted crates heuristics (pushed ++ [block]) =
      accepted crates heuristics pushed ++ [(event, cleaned)] :=
    congrArg Prod.snd hread
  have harrivals := messageArrivals_snoc hevents
  have hsource := callSeen_snoc hkept hevents haccepted hflag
  have hnoted := noted_snoc hkept hevents haccepted hflag
  have hseen : after.seenSequenceNumbers =
      (readBlocks crates heuristics (pushed ++ [block])).1 := by
    rw [hread, hflag.seen, haccepted.seen, hkept.seen]
  have hsetting : after.payloadReplayHeuristics = heuristics :=
    hflag.heuristics.trans (haccepted.heuristics.trans hkept.setting)
  obtain ⟨released, hreleased, hmessages⟩ := hkept.released
  rw [← haccepted.pending] at hreleased
  cases hqueue with
  | passed message pending other =>
    refine ⟨hsetting, hseen, hsource, hnoted, ⟨released, ?_, ?_⟩, ?_⟩
    · rw [harrivals, hreleased, pending, frameMessage, message,
        if_neg Bool.false_ne_true]
      exact append_nil _
    · rw [messages_append, messages_of_isOther _ other, append_nil]
      exact hmessages
    · exact completesLast_append_others hkept.completed _
        fun frame hframe => (other frame hframe).2
  | held message pending silent =>
    rw [silent, map_nil, append_nil]
    refine ⟨hsetting, hseen, hsource, hnoted, ⟨released, ?_, hmessages⟩,
      hkept.completed⟩
    rw [harrivals, hreleased, pending, frameMessage, message, if_pos rfl,
      append_assoc]
    rfl
  | released completed message pending hframes =>
    have hdone : ∀ value ∈ middle.pendingMessageDone,
        isMessageDone "response.output_item.done" value = true := by
      intro value hvalue
      apply isMessageDone_of_arrival
      rw [hreleased]
      exact mem_append_right _ hvalue
    have hall : messageArrivals crates heuristics (pushed ++ [block]) =
        released ++ middle.pendingMessageDone := by
      rw [harrivals, hreleased, frameMessage, message,
        if_neg Bool.false_ne_true]
      exact append_nil _
    have hout : List.Forall₂ (Released crates heuristics)
        (messages (log ++ (middle.pendingMessageDone.map fun value =>
          Frame.event "response.output_item.done"
            (setItemPhase after.phase value)).map (·, pushed ++ [block])))
        (messageArrivals crates heuristics (pushed ++ [block])) := by
      rw [messages_append, hall]
      exact rel_append hmessages
        (released_frames hsource hnoted hdone)
    have hlog := completesLast_append_completed
      (completesLast_append_done hkept.completed _) completed hout
    rw [hframes, map_append, ← append_assoc]
    refine ⟨hsetting, hseen, hsource, hnoted,
      ⟨_, (by rw [pending, append_nil]), ?_⟩, hlog⟩
    rw [messages_append]
    exact (append_nil _).symm ▸ hout

end Handled

/-- A block that is no event of the protocol goes out as text. -/
theorem isOther_unparsed (block : List Char) :
    ∀ frame ∈ sanitizeUnparsedSseBlock block, IsOther frame := by
  intro frame hframe
  have hraw : ∃ text, frame = .raw text := by
    rw [sanitizeUnparsedSseBlock] at hframe
    split at hframe
    · exact ⟨_, mem_singleton.mp hframe⟩
    · split at hframe
      · exact ⟨_, mem_singleton.mp hframe⟩
      · cases hframe
  obtain ⟨text, rfl⟩ := hraw
  exact ⟨rfl, by rintro _ ⟨⟩⟩

section

variable {crates : Crates} {heuristics : Bool}
  (hjson : ∀ text value, crates.fromStr text = some value →
    value.distinct = true)

variable {pushed : Blocks} {block : List Char} {log : List Logged}

include hjson in
theorem distinct_of_parse {event : String} {value : Json}
    (hparse : parseSseValue crates block = some (event, value)) :
    value.distinct = true := by
  rw [parseSseValue] at hparse
  split at hparse
  · cases hparse
  · rename_i data _
    obtain ⟨parsed, hparsed, hpair⟩ := map_eq_some_iff.mp hparse
    obtain rfl := (Prod.mk.inj hpair).2
    exact hjson _ _ hparsed

/-- A block with a protocol error leaves everything as it was. -/
theorem kept_error {normalizer : ThirdPartySseNormalizer}
    (hkept : Kept crates heuristics normalizer pushed log)
    {error : SseProtocolError}
    (hpush : normalizer.pushBlock crates block = .error error) :
    Kept crates heuristics normalizer (pushed ++ [block]) log := by
  have hread : readBlocks crates heuristics (pushed ++ [block]) =
      readBlocks crates heuristics pushed := by
    rw [readBlocks_append, readBlock]
    rw [pushBlock] at hpush
    cases hparse : parseSseValue crates block with
    | none => rfl
    | some parsed =>
      obtain ⟨event, value⟩ := parsed
      rw [hparse] at hpush
      simp only at hpush
      apply if_neg
      rintro ⟨hvalid, -, -⟩
      cases hvalidate : validateKnownSseEvent event value with
      | error => rw [hvalidate] at hvalid; cases hvalid
      | ok =>
        rw [hvalidate] at hpush
        simp only at hpush
        split at hpush <;> cases hpush
  have hlog := kept_ignored hkept hread (SameTurn.refl normalizer)
    (fun frame hframe => absurd hframe not_mem_nil)
  rw [map_nil, append_nil] at hlog
  exact hlog

include hjson in
theorem kept_pushBlock {before after : ThirdPartySseNormalizer}
    (hkept : Kept crates heuristics before pushed log) {frames : List Frame}
    (hpush : before.pushBlock crates block = .ok (after, frames)) :
    Kept crates heuristics after (pushed ++ [block])
      (log ++ frames.map (·, pushed ++ [block])) := by
  have hread := readBlocks_append crates heuristics pushed block
  rw [readBlock] at hread
  rw [pushBlock] at hpush
  cases hparse : parseSseValue crates block with
  | none =>
    rw [hparse] at hpush hread
    obtain ⟨rfl, rfl⟩ := Prod.mk.inj (Except.ok.inj hpush)
    exact kept_ignored hkept hread (SameTurn.refl before)
      (isOther_unparsed block)
  | some parsed =>
    obtain ⟨event, value⟩ := parsed
    rw [hparse] at hpush hread
    simp only at hpush hread
    cases hvalidate : validateKnownSseEvent event value with
    | error => rw [hvalidate] at hpush; cases hpush
    | ok =>
      rw [hvalidate] at hpush hread
      simp only at hpush
      rcases accept_cases before event value with
        ⟨hdropped, hsame, hnone⟩ | ⟨hdoom, hfresh, haccepted, hsome⟩
      · rw [hnone] at hpush
        obtain ⟨rfl, rfl⟩ := Prod.mk.inj (Except.ok.inj hpush)
        rw [if_neg] at hread
        · exact kept_ignored hkept hread hsame
            (fun frame hframe => absurd hframe not_mem_nil)
        · rintro ⟨-, hdoom, hfresh⟩
          rw [← hkept.seen] at hfresh
          rcases hdropped with hdropped | ⟨pair, hpair, hidentity⟩
          · rw [hdoom] at hdropped
            cases hdropped
          · exact hfresh pair hpair hidentity
      · rw [hsome] at hpush
        rw [if_pos ⟨rfl, hdoom, hkept.seen ▸ hfresh⟩] at hread
        rw [hkept.setting] at hpush
        have htidy := tidyItem_cleaned
          (distinct_of_parse hjson hparse) heuristics
        have hstep := handle_step crates (before.accept event value).1
          event htidy
        rw [Except.ok.inj hpush] at hstep
        exact kept_handled hkept hread haccepted hstep.1 hstep.2

include hjson in
/-- Every block of a stream. -/
theorem kept_emitted (blocks : Blocks) {normalizer : ThirdPartySseNormalizer}
    (hkept : Kept crates heuristics normalizer pushed log) :
    Kept crates heuristics (emitted crates normalizer pushed blocks).1
      (pushed ++ blocks)
      (log ++ (emitted crates normalizer pushed blocks).2) := by
  induction blocks generalizing normalizer pushed log with
  | nil =>
    rw [emitted, append_nil, append_nil]
    exact hkept
  | cons block blocks ih =>
    have hblocks : pushed ++ block :: blocks =
        pushed ++ [block] ++ blocks := by simp
    rw [hblocks, emitted]
    cases hpush : normalizer.pushBlock crates block with
    | error error => exact ih (kept_error hkept hpush)
    | ok result =>
      have hrest := ih (kept_pushBlock hjson hkept hpush)
      rw [append_assoc log] at hrest
      exact hrest

include hjson in
/-- Every message that arrives goes out once and in its turn, and those that
arrived before a completion go out before it. -/
theorem messages_released_once (request : Json) (blocks : Blocks) :
    List.Forall₂ (Released crates heuristics)
        (messages (streamLog crates (new request heuristics) blocks))
        (messageArrivals crates heuristics blocks) ∧
      CompletesLast crates heuristics
        (streamLog crates (new request heuristics) blocks) := by
  have hkept := kept_emitted hjson blocks (kept_new crates heuristics request)
  rw [nil_append, nil_append] at hkept
  obtain ⟨released, hreleased, hmessages⟩ := hkept.released
  have hdone : ∀ value ∈ (emitted crates (new request heuristics) []
      blocks).1.pendingMessageDone,
      isMessageDone "response.output_item.done" value = true := by
    intro value hvalue
    apply isMessageDone_of_arrival
    rw [hreleased]
    exact mem_append_right _ hvalue
  rw [streamLog]
  constructor
  · rw [messages_append, hreleased]
    exact rel_append hmessages
      (released_frames hkept.source hkept.noted hdone)
  · apply completesLast_append_others hkept.completed
    intro frame hframe completed hcompleted
    obtain ⟨value, -, rfl⟩ := List.mem_map.mp hframe
    exact absurd (Frame.event.inj hcompleted).1 (by decide)

end

namespace Turn

/-- A finished message with the phase it brings, one without, a finished call,
the completion, and a blank piece of text that a call rides on. -/
def texts : List (String × Json) :=
  [("\x7b\"type\":\"response.output_item.done\",\"item\":\x7b" ++
      "\"type\":\"message\",\"phase\":\"commentary\"\x7d\x7d",
    .obj [("type", .str "response.output_item.done"),
      ("item", .obj [("type", .str "message"),
        ("phase", .str "commentary")])]),
   ("\x7b\"type\":\"response.output_item.done\",\"item\":\x7b" ++
      "\"type\":\"message\"\x7d\x7d",
    .obj [("type", .str "response.output_item.done"),
      ("item", .obj [("type", .str "message")])]),
   ("\x7b\"type\":\"response.output_item.done\",\"item\":\x7b" ++
      "\"type\":\"function_call\"\x7d\x7d",
    .obj [("type", .str "response.output_item.done"),
      ("item", .obj [("type", .str "function_call")])]),
   ("\x7b\"type\":\"response.completed\"\x7d",
    .obj [("type", .str "response.completed")]),
   ("\x7b\"type\":\"response.output_text.delta\",\"output_index\":0," ++
      "\"content_index\":0,\"delta\":\" \",\"item\":\x7b" ++
      "\"type\":\"function_call\"\x7d\x7d",
    .obj [("type", .str "response.output_text.delta"),
      ("output_index", .num (.int 0)), ("content_index", .num (.int 0)),
      ("delta", .str " "), ("item", .obj [("type", .str "function_call")])])]

def blocks : Blocks :=
  (texts.take 4).map fun entry => ("data: " ++ entry.1).toList

/-- The call on the piece of text, and a message behind it. -/
def riding : Blocks :=
  (texts.drop 4 ++ (texts.drop 1).take 1).map fun entry =>
    ("data: " ++ entry.1).toList

/-- JSON on the texts above. -/
def crates : Crates where
  fromStr text := texts.lookup text
  toStr _ := ""
  sha256 _ := []

theorem distinct_fromStr (text : String) (value : Json)
    (hparsed : crates.fromStr text = some value) : value.distinct = true := by
  have hall : ∀ entry ∈ texts, entry.2.distinct = true := by decide
  obtain ⟨front, back, htexts, -⟩ := lookup_eq_some_iff.mp hparsed
  apply hall (text, value)
  rw [htexts]
  exact mem_append_right _ mem_cons_self

/-- What `readBlock` does with an event. -/
def readUpstream (reading : Reading) (upstream : Upstream) : Reading :=
  if (validateKnownSseEvent upstream.1 upstream.2).isOk ∧
      isDoomLoopCheck upstream.1 upstream.2 = false ∧
      ∀ pair ∈ reading.1, identity upstream.1 upstream.2 ≠ some pair then
    ((identity upstream.1 upstream.2).toList ++ reading.1,
      reading.2 ++ [(upstream.1, cleaned false upstream.2)])
  else reading

def upstream (value : Json) : Upstream :=
  (((value.get "type").bind Json.asStr).getD "message", value)

theorem feed_notMem_texts : ∀ entry ∈ texts, '\n' ∉ entry.1.toList := by
  simp only [texts, forall_mem_cons]
  refine ⟨?_, ?_, ?_, ?_, ?_, fun _ hentry => absurd hentry not_mem_nil⟩
  · exact Text.notMem_toList_append (Text.notMem_toList_ofList (by decide))
      (Text.notMem_toList_ofList (by decide))
  · exact Text.notMem_toList_append (Text.notMem_toList_ofList (by decide))
      (Text.notMem_toList_ofList (by decide))
  · exact Text.notMem_toList_append (Text.notMem_toList_ofList (by decide))
      (Text.notMem_toList_ofList (by decide))
  · exact Text.notMem_toList_ofList (by decide)
  · exact Text.notMem_toList_append (Text.notMem_toList_append
      (Text.notMem_toList_ofList (by decide))
      (Text.notMem_toList_ofList (by decide)))
      (Text.notMem_toList_ofList (by decide))

theorem fromStr_texts :
    ∀ entry ∈ texts, crates.fromStr entry.1 = some entry.2 := by
  decide

theorem parse_texts {entry : String × Json} (hentry : entry ∈ texts) :
    parseSseValue crates ("data: " ++ entry.1).toList =
      some (upstream entry.2) := by
  rw [parseSseValue_data crates (feed_notMem_texts entry hentry),
    fromStr_texts entry hentry]
  rfl

/-- The events of the blocks, without a look at their texts. -/
theorem readBlocks_map {entries : List (String × Json)}
    (hentries : entries ⊆ texts) :
    readBlocks crates false
        (entries.map fun entry => ("data: " ++ entry.1).toList) =
      (entries.map fun entry => upstream entry.2).foldl readUpstream
        ([], []) := by
  rw [readBlocks, foldl_map, foldl_map]
  apply foldl_ext
  intro reading entry hentry
  rw [readBlock, parse_texts (hentries hentry)]
  rfl

/-- The message that brings its own phase keeps it, although no call was
seen. -/
theorem own_phase_kept :
    (messages (streamLog crates (new (.obj []) false)
        (blocks.take 1))).map (fun emission =>
          (emission.1.get "item").bind (Json.get "phase")) =
        [some (.str "commentary")] ∧
      ¬ CallSeen crates false (blocks.take 1) := by
  have hfirst : blocks.take 1 = (texts.take 1).map fun entry =>
      ("data: " ++ entry.1).toList := rfl
  constructor
  · obtain ⟨entry, hentry, hparse⟩ : ∃ entry, texts.head? = some entry ∧
        parseSseValue crates ("data: " ++ entry.1).toList =
          some (upstream entry.2) :=
      ⟨_, rfl, parse_texts mem_cons_self⟩
    have hblocks : blocks.take 1 = [("data: " ++ entry.1).toList] := by
      obtain rfl := some.inj hentry
      rfl
    rw [hblocks, streamLog, emitted, pushBlock, hparse]
    obtain rfl := some.inj hentry
    decide
  · rw [CallSeen, accepted, hfirst, readBlocks_map (take_subset 1 texts)]
    decide

/-- The message goes out as an answer, although a call was seen: the blank text
is taken up before anything looks for calls. -/
theorem riding_call_uncounted :
    (messages (streamLog crates (new (.obj []) false) riding)).map
        (fun emission => (emission.1.get "item").bind (Json.get "phase")) =
        [some (.str "final_answer")] ∧
      CallSeen crates false riding := by
  constructor
  · obtain ⟨call, hcall⟩ : ∃ entry, texts[4]? = some entry := ⟨_, rfl⟩
    obtain ⟨message, hmessage⟩ : ∃ entry, texts[1]? = some entry := ⟨_, rfl⟩
    have hparse := parse_texts (mem_of_getElem? hcall)
    have hparse' := parse_texts (mem_of_getElem? hmessage)
    have hriding : riding = [("data: " ++ call.1).toList,
        ("data: " ++ message.1).toList] := by
      obtain rfl := some.inj hcall
      obtain rfl := some.inj hmessage
      rfl
    rw [hriding, streamLog, emitted, pushBlock, hparse, emitted, pushBlock,
      hparse']
    obtain rfl := some.inj hcall
    obtain rfl := some.inj hmessage
    decide
  · rw [CallSeen, accepted, riding, readBlocks_map (append_subset.mpr
      ⟨drop_subset 4 texts,
        List.Subset.trans (take_subset 1 _) (drop_subset 1 texts)⟩)]
    decide

/-- Both messages go out before the completion. -/
theorem two_messages_released :
    (messageArrivals crates false blocks).length = 2 ∧
      List.Forall₂ (Released crates false)
        (messages (streamLog crates (new (.obj []) false) blocks))
        (messageArrivals crates false blocks) ∧
      CompletesLast crates false
        (streamLog crates (new (.obj []) false) blocks) := by
  refine ⟨?_, messages_released_once distinct_fromStr (.obj []) blocks⟩
  rw [messageArrivals, accepted, blocks, readBlocks_map (take_subset 4 texts)]
  decide

end Turn

end ThirdPartySseNormalizer

end Vellum.Proxy
