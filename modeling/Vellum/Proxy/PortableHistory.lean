/-
The portable history of a conversation (`compaction.rs`).  Provider-private
fields are taken out of the items at every depth and images are replaced by a
text.  A reasoning or compaction object in which nothing is visible becomes
null; that is decided before what is in it has been stripped, so a second pass
may decide otherwise.
-/
import Vellum.Library.JsonFields
import Vellum.Proxy.CodexLocalCompact
import Vellum.Proxy.EvidenceOperation
import Vellum.Proxy.PortableItems

namespace Vellum.Proxy

open List

def opaqueFieldKeys : List String :=
  ["encrypted_content", "reasoning_content", "authorization", "api_key",
    "access_token", "refresh_token", "session_token", "xai_token", "cookie",
    "set-cookie", "comp_hash"]

def isOpaqueFieldKey (key : String) : Bool :=
  let lower := asciiLower key
  opaqueFieldKeys.any fun blocked =>
    lower = blocked.toList || mentions lower "encrypted"

mutual

/-- The first such key in a value, with its path. -/
def findOpaqueFieldPath : Json → String → Option (String × String)
  | .arr values, path => findOpaqueInItems values path 0
  | .obj fields, path => findOpaqueInFields fields path
  | _, _ => none

def findOpaqueInItems : List Json → String → Nat → Option (String × String)
  | [], _, _ => none
  | child :: rest, path, index =>
    (findOpaqueFieldPath child (path ++ "[" ++ toString index ++ "]")).or
      (findOpaqueInItems rest path (index + 1))

def findOpaqueInFields :
    List (String × Json) → String → Option (String × String)
  | [], _ => none
  | (key, child) :: rest, path =>
    if isOpaqueFieldKey key then some (key, path ++ "." ++ key)
    else
      (findOpaqueFieldPath child (path ++ "." ++ key)).or
        (findOpaqueInFields rest path)

end

/-- The fields that a model may be shown. -/
def visibleKeys : List String := ["summary", "content", "text"]

def isVisible : Json → Bool
  | .null => false
  | .str text => !isBlank text
  | .arr values => !values.isEmpty
  | .obj fields => !fields.isEmpty
  | _ => true

def hasVisible (fields : List (String × Json)) : Bool :=
  visibleKeys.any fun key => ((Json.obj fields).get key).any isVisible

/-- An object of type `reasoning` or `compaction`. -/
def holdsReasoning (value : Json) : Bool :=
  decide (itemType value ∈ [some "reasoning", some "compaction"])

/-- What `retain` leaves of the fields. -/
def portableFields (fields : List (String × Json)) : List (String × Json) :=
  fields.filter fun field => !isOpaqueFieldKey field.1

/-- The fields whose values are stripped next, if the object stays at all. -/
def keptFields (fields : List (String × Json)) :
    Option (List (String × Json)) :=
  let portable := portableFields fields
  if holdsReasoning (.obj portable) then
    let present := Json.dropNulls visibleKeys portable
    if hasVisible present then some present else none
  else some portable

variable {fields : List (String × Json)} (values : List Json)
  {items : List Json} {value : Json} {kept : List (String × Json)}
  {field : String × Json}

theorem mem_portableFields_of_kept (hkept : keptFields fields = some kept)
    (hfield : field ∈ kept) : field ∈ portableFields fields := by
  simp only [keptFields] at hkept
  split at hkept
  · split at hkept
    · rw [← Option.some.inj hkept] at hfield
      exact Json.mem_of_mem_dropNulls hfield
    · cases hkept
  · rw [← Option.some.inj hkept] at hfield
    exact hfield

theorem mem_of_mem_keptFields (hkept : keptFields fields = some kept)
    (hfield : field ∈ kept) : field ∈ fields :=
  mem_of_mem_filter (mem_portableFields_of_kept hkept hfield)

theorem isOpaqueFieldKey_of_kept (hkept : keptFields fields = some kept)
    (hfield : field ∈ kept) : isOpaqueFieldKey field.1 = false := by
  have hportable := mem_portableFields_of_kept hkept hfield
  rw [portableFields, mem_filter, Bool.not_eq_true'] at hportable
  exact hportable.2

def stripOpaqueFields : Json → Json
  | .arr values =>
    .arr (values.attach.map fun child => stripOpaqueFields child.1)
  | .obj fields =>
    match _hkept : keptFields fields with
    | none => .null
    | some kept =>
      .obj (kept.attach.map fun field =>
        (field.1.1, stripOpaqueFields field.1.2))
  | value => value
termination_by value => sizeOf value
decreasing_by
  · have hlt := List.sizeOf_lt_of_mem child.2
    simp only [Json.arr.sizeOf_spec]
    omega
  · have hlt := List.sizeOf_lt_of_mem (mem_of_mem_keptFields _hkept field.2)
    have hvalue : sizeOf field.1.2 < sizeOf field.1 := by
      obtain ⟨⟨key, value⟩, hmem⟩ := field
      simp only [Prod.mk.sizeOf_spec]
      omega
    simp only [Json.obj.sizeOf_spec]
    omega

def omittedImageText : String := "[Image omitted during compaction]"

def omittedImage : Json :=
  .obj [("type", .str "input_text"), ("text", .str omittedImageText)]

def isImage (value : Json) : Bool :=
  decide (itemType value ∈ [some "input_image", some "image"])

mutual

def stripImages : Json → Json
  | .arr values => .arr (stripImagesInItems values)
  | .obj fields =>
    if isImage (.obj fields) then omittedImage
    else .obj (stripImagesInFields fields)
  | value => value

def stripImagesInItems : List Json → List Json
  | [] => []
  | child :: rest => stripImages child :: stripImagesInItems rest

def stripImagesInFields : List (String × Json) → List (String × Json)
  | [] => []
  | (key, child) :: rest =>
    (key, stripImages child) :: stripImagesInFields rest

end

/-- An item that is not history. -/
def isLeftOut (item : Json) : Bool :=
  decide (classifyItem item = .system) || isSummaryItem item ||
    decide (itemType item ∈ [some "compaction", some "compaction_trigger"])

def sanitizePortableHistory (items : List Json) : List Json :=
  (((items.filter fun item => !isLeftOut item).map stripOpaqueFields).filter
    fun value => value ≠ .null).map stripImages

structure PortableItem where
  value : Json
  occurrenceId : String
  originalIndex : Nat

def sanitizePortableHistoryWithProvenance (items : List Json)
    (identities : List String) : Except String (List PortableItem) :=
  if items.length ≠ identities.length then
    .error ("portable history items length (" ++ toString items.length ++
      ") does not match identities length (" ++ toString identities.length ++
      ")")
  else
    .ok ((items.zip identities).zipIdx.filterMap fun entry =>
      if isLeftOut entry.1.1 then none
      else
        let stripped := stripOpaqueFields entry.1.1
        if stripped = .null then none
        else some ⟨stripImages stripped, entry.1.2, entry.2⟩)

inductive ContinuityKind where
  | native
  | semantic
deriving DecidableEq

def ContinuityKind.debug : ContinuityKind → String
  | native => "Native"
  | semantic => "Semantic"

/-- The fields of a checkpoint that are validated. -/
structure CanonicalCheckpoint where
  goal : String
  exactNextStep : String
  retainedTailItems : List Json
  continuityKind : ContinuityKind := .semantic

/-- The check of the retained items from an index on. -/
def validateTailFrom : Nat → List Json → Except String Unit
  | _, [] => .ok ()
  | index, item :: rest =>
    match findOpaqueFieldPath item
        ("retained_tail_items[" ++ toString index ++ "]") with
    | some (key, path) =>
      .error ("canonical " ++ path ++ " still contains opaque field `" ++
        key ++ "`")
    | none => validateTailFrom (index + 1) rest

def validateCanonicalCheckpoint (checkpoint : CanonicalCheckpoint) :
    Except String Unit :=
  if isBlank checkpoint.goal then .error "canonical checkpoint missing goal"
  else if isBlank checkpoint.exactNextStep then
    .error "canonical checkpoint missing exact_next_step"
  else if checkpoint.continuityKind ≠ .semantic then
    .error ("canonical checkpoint continuity_kind must be semantic, got " ++
      checkpoint.continuityKind.debug)
  else validateTailFrom 0 checkpoint.retainedTailItems

/-! What the passes do to a value. -/

theorem stripOpaqueFields_arr :
    stripOpaqueFields (.arr values) = .arr (values.map stripOpaqueFields) := by
  have hmap : (values.attach.map fun child => stripOpaqueFields child.1) =
      values.map stripOpaqueFields := by simp
  rw [stripOpaqueFields, hmap]

theorem stripOpaqueFields_obj (fields : List (String × Json)) :
    stripOpaqueFields (.obj fields) =
      match keptFields fields with
      | none => .null
      | some kept => .obj (Json.mapValues stripOpaqueFields kept) := by
  rw [stripOpaqueFields]
  split
  · rename_i hkept
    rw [hkept]
  · rename_i kept hkept
    rw [hkept]
    have hmap : (kept.attach.map fun field =>
        (field.1.1, stripOpaqueFields field.1.2)) =
          Json.mapValues stripOpaqueFields kept := by
      conv_rhs => rw [← attach_map_subtype_val kept]
      rw [Json.mapValues, map_map]
      rfl
    rw [hmap]

theorem stripImages_arr :
    stripImages (.arr values) = .arr (values.map stripImages) := by
  have hitems : stripImagesInItems values = values.map stripImages := by
    induction values with
    | nil => rfl
    | cons child rest ih => rw [stripImagesInItems, ih, map_cons]
  rw [stripImages, hitems]

theorem stripImages_obj (fields : List (String × Json)) :
    stripImages (.obj fields) =
      if isImage (.obj fields) then omittedImage
      else .obj (Json.mapValues stripImages fields) := by
  have hfields : stripImagesInFields fields =
      Json.mapValues stripImages fields := by
    induction fields with
    | nil => rfl
    | cons field rest ih =>
      rw [stripImagesInFields, ih]
      rfl
  rw [stripImages, hfields]

/-- Both passes. -/
def cleaned (value : Json) : Json := stripImages (stripOpaqueFields value)

theorem cleaned_leaf (harr : ∀ items, value ≠ .arr items)
    (hobj : ∀ fields, value ≠ .obj fields) : cleaned value = value := by
  cases value with
  | arr items => exact absurd rfl (harr items)
  | obj fields => exact absurd rfl (hobj fields)
  | null | bool | num | str => simp [cleaned, stripOpaqueFields, stripImages]

theorem cleaned_arr : cleaned (.arr values) = .arr (values.map cleaned) := by
  rw [cleaned, stripOpaqueFields_arr, stripImages_arr, map_map]
  rfl

theorem cleaned_obj_of_none (hkept : keptFields fields = none) :
    cleaned (.obj fields) = .null := by
  rw [cleaned, stripOpaqueFields_obj, hkept]
  rfl

theorem cleaned_obj_of_some (hkept : keptFields fields = some kept) :
    cleaned (.obj fields) =
      if isImage (.obj (Json.mapValues stripOpaqueFields kept)) then omittedImage
      else .obj (Json.mapValues cleaned kept) := by
  rw [cleaned, stripOpaqueFields_obj, hkept]
  change stripImages (.obj (Json.mapValues stripOpaqueFields kept)) = _
  rw [stripImages_obj, Json.mapValues_mapValues]
  rfl

/-! No such key is left. -/

theorem findOpaqueInItems_eq_none {values : List Json}
    (hvalues : ∀ value ∈ values, ∀ path,
      findOpaqueFieldPath value path = none) (path : String) (index : Nat) :
    findOpaqueInItems values path index = none := by
  induction values generalizing index with
  | nil => rfl
  | cons child rest ih =>
    rw [forall_mem_cons] at hvalues
    rw [findOpaqueInItems, hvalues.1, ih hvalues.2]
    rfl

theorem findOpaqueInFields_eq_none
    (hkeys : ∀ field ∈ fields, isOpaqueFieldKey field.1 = false)
    (hvalues : ∀ field ∈ fields, ∀ path,
      findOpaqueFieldPath field.2 path = none) (path : String) :
    findOpaqueInFields fields path = none := by
  induction fields with
  | nil => rfl
  | cons field rest ih =>
    rw [forall_mem_cons] at hkeys hvalues
    rw [findOpaqueInFields, hkeys.1, if_neg Bool.false_ne_true, hvalues.1,
      ih hkeys.2 hvalues.2]
    rfl

theorem findOpaqueFieldPath_omittedImage (path : String) :
    findOpaqueFieldPath omittedImage path = none := by
  have hkeys : ∀ key ∈ ["type", "text"], isOpaqueFieldKey key = false := by
    decide
  refine findOpaqueInFields_eq_none ?_ ?_ path
  · intro field hfield
    refine hkeys field.1 ?_
    exact mem_map.mpr ⟨field, hfield, rfl⟩
  · intro field hfield inner
    simp only [mem_cons, not_mem_nil, or_false] at hfield
    rcases hfield with rfl | rfl <;> rfl

theorem findOpaqueFieldPath_cleaned (value : Json) :
    ∀ path, findOpaqueFieldPath (cleaned value) path = none := by
  induction value using Json.nestedInduction with
  | leaf value harr hobj =>
    intro path
    rw [cleaned_leaf harr hobj]
    cases value with
    | arr items => exact absurd rfl (harr items)
    | obj fields => exact absurd rfl (hobj fields)
    | null | bool | num | str => rfl
  | arr items ih =>
    intro path
    rw [cleaned_arr, findOpaqueFieldPath]
    refine findOpaqueInItems_eq_none ?_ path 0
    intro value hvalue
    obtain ⟨item, hitem, rfl⟩ := mem_map.mp hvalue
    exact ih item hitem
  | obj fields ih =>
    intro path
    cases hkept : keptFields fields with
    | none =>
      rw [cleaned_obj_of_none hkept]
      rfl
    | some kept =>
      rw [cleaned_obj_of_some hkept]
      split
      · exact findOpaqueFieldPath_omittedImage path
      · rw [findOpaqueFieldPath]
        refine findOpaqueInFields_eq_none ?_ ?_ path
        · intro field hfield
          obtain ⟨source, hsource, rfl⟩ := mem_map.mp hfield
          have hkey := isOpaqueFieldKey_of_kept hkept hsource
          exact hkey
        · intro field hfield
          obtain ⟨source, hsource, rfl⟩ := mem_map.mp hfield
          exact ih source (mem_of_mem_keptFields hkept hsource)

/-! The two versions for lists. -/

/-- What becomes of one item. -/
def portableValue (item : Json) : Option Json :=
  if isLeftOut item then none
  else if stripOpaqueFields item = .null then none
  else some (cleaned item)

theorem sanitizePortableHistory_eq (items : List Json) :
    sanitizePortableHistory items = items.filterMap portableValue := by
  induction items with
  | nil => rfl
  | cons item rest ih =>
    rw [filterMap_cons, ← ih, sanitizePortableHistory, portableValue,
      filter_cons]
    by_cases hout : isLeftOut item = true
    · rw [hout]
      rfl
    · rw [Bool.not_eq_true] at hout
      rw [hout]
      by_cases hnull : stripOpaqueFields item = .null
      · simp [hnull, sanitizePortableHistory]
      · simp [hnull, sanitizePortableHistory, cleaned]

theorem mem_sanitizePortableHistory :
    value ∈ sanitizePortableHistory items ↔
      ∃ item ∈ items, portableValue item = some value := by
  rw [sanitizePortableHistory_eq, mem_filterMap]

theorem exists_cleaned_of_portableValue {item : Json}
    (hvalue : portableValue item = some value) : value = cleaned item := by
  rw [portableValue] at hvalue
  split at hvalue
  · cases hvalue
  · split at hvalue
    · cases hvalue
    · exact (Option.some.inj hvalue).symm

theorem validateTailFrom_sanitized {values : List Json}
    (hvalues : ∀ value ∈ values, ∀ path,
      findOpaqueFieldPath value path = none) (index : Nat) :
    validateTailFrom index values = .ok () := by
  induction values generalizing index with
  | nil => rfl
  | cons value rest ih =>
    rw [forall_mem_cons] at hvalues
    rw [validateTailFrom, hvalues.1]
    exact ih hvalues.2 (index + 1)

theorem findOpaqueFieldPath_sanitized :
    ∀ value ∈ sanitizePortableHistory items, ∀ path,
      findOpaqueFieldPath value path = none := by
  intro value hvalue path
  obtain ⟨item, -, hitem⟩ := mem_sanitizePortableHistory.mp hvalue
  rw [exists_cleaned_of_portableValue hitem]
  exact findOpaqueFieldPath_cleaned item path

theorem validate_sanitized_tail (checkpoint : CanonicalCheckpoint)
    (items : List Json) :
    validateCanonicalCheckpoint
        { checkpoint with retainedTailItems := sanitizePortableHistory items } =
      validateCanonicalCheckpoint
        { checkpoint with retainedTailItems := [] } := by
  have htail : validateTailFrom 0 (sanitizePortableHistory items) = .ok () :=
    validateTailFrom_sanitized findOpaqueFieldPath_sanitized 0
  simp only [validateCanonicalCheckpoint, htail]
  rfl

/-- The entry of an item with its identity and its index. -/
def portableEntry (entry : (Json × String) × Nat) : Option PortableItem :=
  (portableValue entry.1.1).map fun value => ⟨value, entry.1.2, entry.2⟩

theorem sanitizeWithProvenance_eq {identities : List String}
    (hlength : identities.length = items.length) :
    sanitizePortableHistoryWithProvenance items identities =
      .ok ((items.zip identities).zipIdx.filterMap portableEntry) := by
  rw [sanitizePortableHistoryWithProvenance,
    if_neg (not_not.mpr hlength.symm)]
  refine congrArg Except.ok (filterMap_congr ?_)
  intro entry _
  rw [portableEntry, portableValue]
  by_cases hout : isLeftOut entry.1.1 = true
  · rw [if_pos hout, if_pos hout]
    rfl
  · rw [if_neg hout, if_neg hout]
    by_cases hnull : stripOpaqueFields entry.1.1 = .null
    · rw [if_pos hnull]
      simp only [if_pos hnull]
      rfl
    · rw [if_neg hnull]
      simp only [if_neg hnull]
      rfl

/-- What the entries carry of a list is what is picked from it. -/
theorem map_filterMap_portableEntry (entries : List ((Json × String) × Nat)) :
    (entries.filterMap portableEntry).map PortableItem.value =
        (entries.map fun entry => entry.1.1).filterMap portableValue ∧
      ((entries.filterMap portableEntry).map
        PortableItem.originalIndex).Sublist (entries.map Prod.snd) := by
  induction entries with
  | nil => exact ⟨rfl, List.Sublist.refl []⟩
  | cons entry rest ih =>
    rw [filterMap_cons, map_cons, map_cons,
      filterMap_cons, portableEntry]
    cases portableValue entry.1.1 with
    | none => exact ⟨ih.1, ih.2.cons entry.2⟩
    | some value =>
      refine ⟨?_, ih.2.cons_cons entry.2⟩
      exact congrArg (List.cons value) ih.1

/-- What is claimed of the version with provenance. -/
structure SameHistory (items : List Json) (identities : List String)
    (portable : List PortableItem) : Prop where
  values : portable.map PortableItem.value = sanitizePortableHistory items
  increasing : (portable.map PortableItem.originalIndex).Pairwise (· < ·)
  identified : ∀ item ∈ portable,
    identities[item.originalIndex]? = some item.occurrenceId

theorem sanitizeWithProvenance_same {identities : List String}
    (hlength : identities.length = items.length) :
    ∃ portable, sanitizePortableHistoryWithProvenance items identities =
      .ok portable ∧ SameHistory items identities portable := by
  refine ⟨_, sanitizeWithProvenance_eq hlength, ?_, ?_, ?_⟩
  · have hitems : (items.zip identities).zipIdx.map
        (fun entry => entry.1.1) = items := by
      have hfirst : (items.zip identities).zipIdx.map
          (fun entry => entry.1.1) =
            ((items.zip identities).zipIdx.map Prod.fst).map Prod.fst := by
        rw [map_map]
        rfl
      rw [hfirst, zipIdx_map_fst,
        map_fst_zip (Nat.le_of_eq hlength.symm)]
    rw [(map_filterMap_portableEntry _).1, hitems, sanitizePortableHistory_eq]
  · refine List.Pairwise.sublist (map_filterMap_portableEntry _).2 ?_
    rw [zipIdx_map_snd]
    exact pairwise_lt_range'
  · intro item hitem
    obtain ⟨entry, hentry, hpicked⟩ := mem_filterMap.mp hitem
    rw [portableEntry, Option.map_eq_some_iff] at hpicked
    obtain ⟨value, -, rfl⟩ := hpicked
    have hpair := mem_zipIdx_iff_getElem?.mp hentry
    rw [getElem?_zip_eq_some] at hpair
    exact hpair.2

end Vellum.Proxy
