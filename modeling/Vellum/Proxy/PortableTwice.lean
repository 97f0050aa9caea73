/-
Sanitizing a portable history twice.  The second pass sees what the first has
stripped: a field that became null or an empty object no longer makes its
reasoning object visible, and a message whose first part is gone may begin
with the text of a summary.
-/
import Vellum.Proxy.PortableHistory

namespace Vellum.Proxy

open List Option Json

/-- A reasoning or compaction object in which nothing is visible. -/
def isEmptied : Json → Bool
  | .obj fields => holdsReasoning (.obj fields) && !hasVisible fields
  | _ => false

/-- What is visible and stays so. -/
def lastsVisible : Json → Bool
  | .obj fields => !isEmptied (.obj fields) && !(portableFields fields).isEmpty
  | value => isVisible value

/-- None of the fields that may be visible is emptied, and one of them stays
visible. -/
def keepsVisible (fields : List (String × Json)) : Bool :=
  (visibleKeys.all fun key => !((Json.obj fields).get key).any isEmptied) &&
    visibleKeys.any fun key => ((Json.obj fields).get key).any lastsVisible

mutual

/-- Every reasoning or compaction object that is kept, and that is not part of
an image, keeps what is visible of it. -/
def isSettled : Json → Bool
  | .arr items => settledItems items
  | .obj fields =>
    isEmptied (.obj fields) || isImage (.obj fields) ||
      ((!holdsReasoning (.obj fields) || keepsVisible fields) &&
        settledFields fields)
  | _ => true

def settledItems : List Json → Bool
  | [] => true
  | item :: rest => isSettled item && settledItems rest

def settledFields : List (String × Json) → Bool
  | [] => true
  | (key, value) :: rest =>
    (isOpaqueFieldKey key || isSettled value) && settledFields rest

end

/-- The first text of a message without its emptied parts and with a text for
each image. -/
def firstText : List Json → Option String
  | [] => none
  | part :: rest =>
    if isEmptied part then firstText rest
    else if isImage part then some omittedImageText
    else (partText part).or (firstText rest)

/-- A user message that begins with the text of a summary after that. -/
def becomesSummary (item : Json) : Bool :=
  !isImage item && decide ((item.get "role").bind Json.asStr = some "user") &&
    match item.get "content" with
    | some (.arr parts) =>
      (firstText parts).any fun text => startsWith text officialSummaryPrefix
    | _ => false

theorem settledItems_iff {items : List Json} :
    settledItems items = true ↔ ∀ item ∈ items, isSettled item = true := by
  induction items with
  | nil => simp [settledItems]
  | cons item rest ih =>
    rw [settledItems, Bool.and_eq_true, ih, forall_mem_cons]

variable {fields : List (String × Json)} (value : Json)

theorem settledFields_iff :
    settledFields fields = true ↔ ∀ field ∈ fields,
      isOpaqueFieldKey field.1 = false → isSettled field.2 = true := by
  induction fields with
  | nil => simp [settledFields]
  | cons field rest ih =>
    rw [settledFields, Bool.and_eq_true, ih, forall_mem_cons,
      Bool.or_eq_true]
    cases isOpaqueFieldKey field.1 with
    | true => simp
    | false => simp

/-! What is kept of an object. -/

theorem visibleKeys_portable : ∀ key ∈ visibleKeys,
    isOpaqueFieldKey key = false := by decide

theorem typeKey_portable : isOpaqueFieldKey "type" = false := by decide

theorem get_portableFields {key : String} (hkey : isOpaqueFieldKey key = false)
    (fields : List (String × Json)) :
    (Json.obj (portableFields fields)).get key = (Json.obj fields).get key := by
  have hkeep : (!isOpaqueFieldKey key) = true := by
    rw [hkey]
    rfl
  exact get_filter_name (fun key => !isOpaqueFieldKey key) hkeep fields

theorem nodup_portableFields (hnodup : (fields.map Prod.fst).Nodup) :
    ((portableFields fields).map Prod.fst).Nodup :=
  hnodup.sublist (filter_sublist.map _)

theorem itemType_portableFields (fields : List (String × Json)) :
    itemType (.obj (portableFields fields)) = itemType (.obj fields) := by
  rw [itemType, get_portableFields typeKey_portable, itemType]

theorem holdsReasoning_portableFields (fields : List (String × Json)) :
    holdsReasoning (.obj (portableFields fields)) =
      holdsReasoning (.obj fields) := by
  rw [holdsReasoning, itemType_portableFields, holdsReasoning]

section Kept

variable {fields : List (String × Json)}
  (hnodup : (fields.map Prod.fst).Nodup)

include hnodup

theorem hasVisible_dropNulls :
    hasVisible (Json.dropNulls visibleKeys (portableFields fields)) =
      hasVisible fields := by
  have hkey (key : String) (hmem : key ∈ visibleKeys) :
      ((Json.obj (Json.dropNulls visibleKeys (portableFields fields))).get
        key).any isVisible = ((Json.obj fields).get key).any isVisible := by
    rw [Bool.eq_iff_iff, Option.any_eq_true, Option.any_eq_true]
    constructor
    · rintro ⟨value, hget, hvisible⟩
      rw [get_dropNulls_eq_some (nodup_portableFields hnodup),
        get_portableFields (visibleKeys_portable key hmem)] at hget
      exact ⟨value, hget.1, hvisible⟩
    · rintro ⟨value, hget, hvisible⟩
      refine ⟨value, ?_, hvisible⟩
      rw [get_dropNulls_eq_some (nodup_portableFields hnodup),
        get_portableFields (visibleKeys_portable key hmem)]
      refine ⟨hget, ?_⟩
      rintro ⟨-, rfl⟩
      cases hvisible
  rw [hasVisible, hasVisible, Bool.eq_iff_iff, List.any_eq_true,
    List.any_eq_true]
  constructor
  · rintro ⟨key, hmem, hvisible⟩
    exact ⟨key, hmem, (hkey key hmem).symm.trans hvisible⟩
  · rintro ⟨key, hmem, hvisible⟩
    exact ⟨key, hmem, (hkey key hmem).trans hvisible⟩

theorem keptFields_eq :
    keptFields fields =
      if isEmptied (.obj fields) then none
      else if holdsReasoning (.obj fields) then
        some (Json.dropNulls visibleKeys (portableFields fields))
      else some (portableFields fields) := by
  simp only [keptFields, holdsReasoning_portableFields,
    hasVisible_dropNulls hnodup, isEmptied]
  by_cases hreasoning : holdsReasoning (.obj fields) = true <;>
    by_cases hvisible : hasVisible fields = true <;>
    simp [hreasoning, hvisible]

theorem keptFields_eq_none_iff :
    keptFields fields = none ↔ isEmptied (.obj fields) = true := by
  rw [keptFields_eq hnodup]
  split
  · rename_i hemptied
    exact iff_of_true rfl hemptied
  · rename_i hemptied
    refine iff_of_false ?_ hemptied
    split
    · exact some_ne_none _
    · exact some_ne_none _

variable {kept : List (String × Json)} (hkept : keptFields fields = some kept)

include hkept

theorem isEmptied_of_kept : isEmptied (.obj fields) = false := by
  rw [← Bool.not_eq_true, ← keptFields_eq_none_iff hnodup, hkept]
  exact some_ne_none kept

theorem nodup_kept : (kept.map Prod.fst).Nodup := by
  have hemptied := isEmptied_of_kept hnodup hkept
  rw [keptFields_eq hnodup, hemptied, if_neg Bool.false_ne_true] at hkept
  split at hkept
  · rw [← some.inj hkept]
    exact nodup_dropNulls visibleKeys (nodup_portableFields hnodup)
  · rw [← some.inj hkept]
    exact nodup_portableFields hnodup

/-- The fields without the provider-private ones, and of a reasoning object
without the nulls. -/
theorem mem_kept_iff {field : String × Json} :
    field ∈ kept ↔ field ∈ fields ∧ isOpaqueFieldKey field.1 = false ∧
      ¬ (holdsReasoning (.obj fields) = true ∧ field.1 ∈ visibleKeys ∧
        field.2 = .null) := by
  have hemptied := isEmptied_of_kept hnodup hkept
  rw [keptFields_eq hnodup, hemptied, if_neg Bool.false_ne_true] at hkept
  split at hkept
  · rename_i hreasoning
    rw [← some.inj hkept,
      mem_dropNulls (nodup_portableFields hnodup), portableFields,
      mem_filter, Bool.not_eq_true', and_assoc]
    simp [hreasoning]
  · rename_i hreasoning
    rw [← some.inj hkept, portableFields, mem_filter,
      Bool.not_eq_true']
    simp [hreasoning]

theorem get_kept_eq_some_iff {key : String}
    (hkey : isOpaqueFieldKey key = false) {value : Json} :
    (Json.obj kept).get key = some value ↔
      (Json.obj fields).get key = some value ∧
        ¬ (holdsReasoning (.obj fields) = true ∧ key ∈ visibleKeys ∧
          value = .null) := by
  rw [get_eq_some_iff_mem (nodup_kept hnodup hkept),
    mem_kept_iff hnodup hkept, get_eq_some_iff_mem hnodup]
  simp [hkey]

theorem asStr_get_kept {key : String}
    (hkey : isOpaqueFieldKey key = false) :
    ((Json.obj kept).get key).bind Json.asStr =
      ((Json.obj fields).get key).bind Json.asStr := by
  ext text
  rw [bind_eq_some_iff, bind_eq_some_iff]
  constructor
  · rintro ⟨value, hget, htext⟩
    rw [get_kept_eq_some_iff hnodup hkept hkey] at hget
    exact ⟨value, hget.1, htext⟩
  · rintro ⟨value, hget, htext⟩
    refine ⟨value, ?_, htext⟩
    rw [get_kept_eq_some_iff hnodup hkept hkey]
    refine ⟨hget, ?_⟩
    rintro ⟨-, -, rfl⟩
    cases htext

end Kept

/-! The first pass. -/

theorem asStr_stripOpaqueFields :
    (stripOpaqueFields value).asStr = value.asStr := by
  cases value with
  | obj fields =>
    rw [stripOpaqueFields_obj]
    cases keptFields fields <;> rfl
  | arr values => rw [stripOpaqueFields_arr]; rfl
  | null | bool | num | str => simp [stripOpaqueFields]

theorem asStr_cleaned : (cleaned value).asStr = value.asStr := by
  cases value with
  | obj fields =>
    cases hkept : keptFields fields with
    | none => rw [cleaned_obj_of_none hkept]; rfl
    | some kept =>
      rw [cleaned_obj_of_some hkept]
      split <;> rfl
  | arr values => rw [cleaned_arr]; rfl
  | null | bool | num | str => simp [cleaned, stripOpaqueFields, stripImages]

/-- Strings are found again in changed fields if the change keeps strings. -/
theorem asStr_get_mapValues {change : Json → Json}
    (hchange : ∀ value, (change value).asStr = value.asStr)
    (fields : List (String × Json)) (key : String) :
    ((Json.obj (Json.mapValues change fields)).get key).bind Json.asStr =
      ((Json.obj fields).get key).bind Json.asStr := by
  rw [get_mapValues]
  cases (Json.obj fields).get key with
  | none => rfl
  | some value => exact hchange value

theorem stripOpaqueFields_eq_null_iff {value : Json}
    (hdistinct : value.distinct = true) :
    stripOpaqueFields value = .null ↔
      value = .null ∨ isEmptied value = true := by
  cases value with
  | obj fields =>
    rw [stripOpaqueFields_obj,
      ← keptFields_eq_none_iff (distinct_obj_iff.mp hdistinct).1]
    cases keptFields fields <;> simp
  | arr values =>
    rw [stripOpaqueFields_arr]
    simp [isEmptied]
  | null | bool | num | str => simp [stripOpaqueFields, isEmptied]

section Shape

variable {fields kept : List (String × Json)}
  (hnodup : (fields.map Prod.fst).Nodup)
  (hkept : keptFields fields = some kept)

include hnodup hkept

theorem itemType_kept {change : Json → Json}
    (hchange : ∀ value, (change value).asStr = value.asStr) :
    itemType (.obj (Json.mapValues change kept)) = itemType (.obj fields) := by
  rw [itemType, asStr_get_mapValues hchange,
    asStr_get_kept hnodup hkept typeKey_portable, itemType]

theorem cleaned_obj_of_image (himage : isImage (.obj fields) = true) :
    cleaned (.obj fields) = omittedImage := by
  rw [isImage, ← itemType_kept hnodup hkept asStr_stripOpaqueFields] at himage
  rw [cleaned_obj_of_some hkept, isImage, if_pos himage]

theorem cleaned_obj_of_plain (himage : isImage (.obj fields) = false) :
    cleaned (.obj fields) = .obj (Json.mapValues cleaned kept) := by
  rw [isImage, ← itemType_kept hnodup hkept asStr_stripOpaqueFields] at himage
  rw [cleaned_obj_of_some hkept, isImage, himage,
    if_neg Bool.false_ne_true]

end Shape

theorem cleaned_eq_null_iff {value : Json} (hdistinct : value.distinct = true) :
    cleaned value = .null ↔ value = .null ∨ isEmptied value = true := by
  cases value with
  | obj fields =>
    have hnodup := (distinct_obj_iff.mp hdistinct).1
    rw [← keptFields_eq_none_iff hnodup]
    cases hkept : keptFields fields with
    | none => simp [cleaned_obj_of_none hkept]
    | some kept =>
      rw [cleaned_obj_of_some hkept]
      split <;> simp [omittedImage]
  | arr values =>
    rw [cleaned_arr]
    simp [isEmptied]
  | null | bool | num | str =>
    simp [cleaned, stripOpaqueFields, stripImages, isEmptied]

/-- An object that is not emptied and has a portable field keeps one. -/
theorem kept_isEmpty_iff {kept : List (String × Json)}
    (hnodup : (fields.map Prod.fst).Nodup)
    (hkept : keptFields fields = some kept) :
    kept = [] ↔ portableFields fields = [] := by
  constructor
  · intro hnone
    by_contra hsome
    obtain ⟨field, hfield⟩ := exists_mem_of_ne_nil _ hsome
    have hvisible : holdsReasoning (.obj fields) = true →
        hasVisible fields = true := by
      intro hreasoning
      have hemptied := isEmptied_of_kept hnodup hkept
      rw [isEmptied, hreasoning, Bool.true_and, Bool.not_eq_false'] at hemptied
      exact hemptied
    by_cases hreasoning : holdsReasoning (.obj fields) = true
    · -- the visible field stays
      have hany := hvisible hreasoning
      rw [hasVisible, List.any_eq_true] at hany
      obtain ⟨key, hkey, hany⟩ := hany
      obtain ⟨value, hget, hvalue⟩ := (Option.any_eq_true _ _).mp hany
      have hstays : (Json.obj kept).get key = some value := by
        rw [get_kept_eq_some_iff hnodup hkept (visibleKeys_portable key hkey)]
        refine ⟨hget, ?_⟩
        rintro ⟨-, -, rfl⟩
        cases hvalue
      rw [hnone] at hstays
      cases hstays
    · rw [portableFields, mem_filter, Bool.not_eq_true'] at hfield
      have hstays : field ∈ kept := by
        rw [mem_kept_iff hnodup hkept]
        exact ⟨hfield.1, hfield.2, fun h => hreasoning h.1⟩
      rw [hnone] at hstays
      exact absurd hstays not_mem_nil
  · intro hnone
    rw [eq_nil_iff_forall_not_mem]
    intro field hfield
    have hportable := mem_portableFields_of_kept hkept hfield
    rw [hnone] at hportable
    exact absurd hportable not_mem_nil

theorem isVisible_cleaned {value : Json} (hdistinct : value.distinct = true) :
    isVisible (cleaned value) = lastsVisible value := by
  cases value with
  | obj fields =>
    have hnodup := (distinct_obj_iff.mp hdistinct).1
    cases hkept : keptFields fields with
    | none =>
      have hemptied := (keptFields_eq_none_iff hnodup).mp hkept
      rw [cleaned_obj_of_none hkept, lastsVisible, hemptied]
      rfl
    | some kept =>
      rw [lastsVisible, isEmptied_of_kept hnodup hkept, Bool.not_false,
        Bool.true_and]
      by_cases himage : isImage (.obj fields) = true
      · rw [cleaned_obj_of_image hnodup hkept himage]
        have htype : ∃ value, ("type", value) ∈ fields := by
          rw [isImage, decide_eq_true_eq] at himage
          cases hget : (Json.obj fields).get "type" with
          | none =>
            rw [itemType, hget] at himage
            exact absurd himage (by decide)
          | some value =>
            exact ⟨value, (get_eq_some_iff_mem hnodup).mp hget⟩
        obtain ⟨value, hmem⟩ := htype
        have hportable : ("type", value) ∈ portableFields fields := by
          rw [portableFields, mem_filter, typeKey_portable]
          exact ⟨hmem, rfl⟩
        have hne := ne_nil_of_mem hportable
        rw [← isEmpty_eq_false_iff] at hne
        rw [hne]
        rfl
      · rw [Bool.not_eq_true] at himage
        rw [cleaned_obj_of_plain hnodup hkept himage, isVisible,
          Bool.not_inj_iff, Bool.eq_iff_iff, List.isEmpty_iff,
          List.isEmpty_iff, ← kept_isEmpty_iff hnodup hkept, Json.mapValues,
          map_eq_nil_iff]
  | arr values =>
    rw [cleaned_arr, isVisible, isEmpty_map]
    rfl
  | null | bool | num | str =>
    simp [cleaned, stripOpaqueFields, stripImages, lastsVisible]

/-! The second pass. -/

/-- Stripping leaves an object without provider-private fields alone exactly if
it leaves what is in it alone and, of a reasoning object, has no null to
remove and something visible to keep. -/
theorem stripOpaqueFields_eq_self_iff
    (hportable : ∀ field ∈ fields, isOpaqueFieldKey field.1 = false) :
    stripOpaqueFields (.obj fields) = .obj fields ↔
      (holdsReasoning (.obj fields) = true →
        (∀ key ∈ visibleKeys, (Json.obj fields).get key ≠ some .null) ∧
          hasVisible fields = true) ∧
      ∀ field ∈ fields, stripOpaqueFields field.2 = field.2 := by
  have hall : portableFields fields = fields := by
    rw [portableFields, filter_eq_self]
    intro field hfield
    rw [hportable field hfield]
    rfl
  have hsame : Json.mapValues stripOpaqueFields fields = fields ↔
      ∀ field ∈ fields, stripOpaqueFields field.2 = field.2 := by
    have hid : Json.mapValues id fields = fields := List.map_id fields
    have hiff : Json.mapValues stripOpaqueFields fields =
        Json.mapValues id fields ↔ _ := mapValues_eq_iff
    rw [hid] at hiff
    exact hiff
  rw [stripOpaqueFields_obj, keptFields, hall]
  by_cases hreasoning : holdsReasoning (.obj fields) = true
  · simp only [if_pos hreasoning]
    by_cases hnull : ∀ key ∈ visibleKeys,
        (Json.obj fields).get key ≠ some .null
    · rw [dropNulls_eq_self hnull]
      by_cases hvisible : hasVisible fields = true
      · rw [if_pos hvisible]
        simp only [Json.obj.injEq, hsame]
        exact ⟨fun h => ⟨fun _ => ⟨hnull, hvisible⟩, h⟩, fun h => h.2⟩
      · rw [if_neg hvisible]
        refine iff_of_false ?_ ?_
        · intro heq
          cases heq
        · intro h
          exact hvisible (h.1 hreasoning).2
    · refine iff_of_false ?_ fun h => hnull (h.1 hreasoning).1
      intro heq
      push Not at hnull
      obtain ⟨key, hkey, hget⟩ := hnull
      have hshorter := length_dropNulls_lt hkey hget
      split at heq
      · cases heq
      · rename_i kept hkept
        split at hkept
        · rw [← some.inj hkept, Json.obj.injEq] at heq
          have hlength := congrArg List.length heq
          rw [Json.mapValues, length_map] at hlength
          omega
        · cases hkept
  · rw [if_neg hreasoning]
    simp only [Json.obj.injEq, hsame]
    exact ⟨fun h => ⟨fun h' => absurd h' hreasoning, h⟩, fun h => h.2⟩

theorem stripOpaqueFields_omittedImage :
    stripOpaqueFields omittedImage = omittedImage := by
  have hkeys : ∀ key ∈ ["type", "text"], isOpaqueFieldKey key = false := by
    decide
  refine (stripOpaqueFields_eq_self_iff ?_).mpr ⟨?_, ?_⟩
  · intro field hfield
    exact hkeys field.1 (List.mem_map.mpr ⟨field, hfield, rfl⟩)
  · intro hreasoning
    exact absurd hreasoning (by decide)
  · intro field hfield
    simp only [mem_cons, not_mem_nil, or_false] at hfield
    rcases hfield with rfl | rfl <;> simp [stripOpaqueFields]

section Second

variable {fields kept : List (String × Json)}
  (hdistinct : (Json.obj fields).distinct = true)
  (hkept : keptFields fields = some kept)

include hdistinct hkept

/-- A field that was emptied is a null for the second pass. -/
theorem null_in_cleaned_iff {key : String} (hkey : key ∈ visibleKeys)
    (hreasoning : holdsReasoning (.obj fields) = true) :
    (Json.obj (Json.mapValues cleaned kept)).get key = some .null ↔
      ((Json.obj fields).get key).any isEmptied = true := by
  have hnodup := (distinct_obj_iff.mp hdistinct).1
  have hportable := visibleKeys_portable key hkey
  rw [get_mapValues, map_eq_some_iff, Option.any_eq_true]
  constructor
  · rintro ⟨value, hget, hnull⟩
    rw [get_kept_eq_some_iff hnodup hkept hportable] at hget
    have hvalue := distinct_get hdistinct hget.1
    rcases (cleaned_eq_null_iff hvalue).mp hnull with rfl | hemptied
    · exact absurd ⟨hreasoning, hkey, rfl⟩ hget.2
    · exact ⟨value, hget.1, hemptied⟩
  · rintro ⟨value, hget, hemptied⟩
    refine ⟨value, ?_, (cleaned_eq_null_iff
      (distinct_get hdistinct hget)).mpr (Or.inr hemptied)⟩
    rw [get_kept_eq_some_iff hnodup hkept hportable]
    refine ⟨hget, ?_⟩
    rintro ⟨-, -, rfl⟩
    cases hemptied

theorem hasVisible_cleaned :
    hasVisible (Json.mapValues cleaned kept) =
      visibleKeys.any fun key =>
        ((Json.obj fields).get key).any lastsVisible := by
  have hnodup := (distinct_obj_iff.mp hdistinct).1
  have hkey (key : String) (hmem : key ∈ visibleKeys) :
      ((Json.obj (Json.mapValues cleaned kept)).get key).any isVisible = true ↔
        ((Json.obj fields).get key).any lastsVisible = true := by
    have hportable := visibleKeys_portable key hmem
    rw [get_mapValues, Option.any_map, Option.any_eq_true,
      Option.any_eq_true]
    constructor
    · rintro ⟨value, hget, hvisible⟩
      rw [get_kept_eq_some_iff hnodup hkept hportable] at hget
      have hvalue := distinct_get hdistinct hget.1
      exact ⟨value, hget.1, (isVisible_cleaned hvalue).symm.trans hvisible⟩
    · rintro ⟨value, hget, hlasts⟩
      have hvalue := distinct_get hdistinct hget
      refine ⟨value, ?_, (isVisible_cleaned hvalue).trans hlasts⟩
      rw [get_kept_eq_some_iff hnodup hkept hportable]
      refine ⟨hget, ?_⟩
      rintro ⟨-, -, rfl⟩
      cases hlasts
  rw [hasVisible, Bool.eq_iff_iff, List.any_eq_true, List.any_eq_true]
  constructor
  · rintro ⟨key, hmem, hvisible⟩
    exact ⟨key, hmem, (hkey key hmem).mp hvisible⟩
  · rintro ⟨key, hmem, hlasts⟩
    exact ⟨key, hmem, (hkey key hmem).mpr hlasts⟩

theorem keepsVisible_iff (hreasoning : holdsReasoning (.obj fields) = true) :
    ((∀ key ∈ visibleKeys,
        (Json.obj (Json.mapValues cleaned kept)).get key ≠ some .null) ∧
      hasVisible (Json.mapValues cleaned kept) = true) ↔
    keepsVisible fields = true := by
  rw [keepsVisible, Bool.and_eq_true, hasVisible_cleaned hdistinct hkept,
    List.all_eq_true]
  refine and_congr_left' ?_
  refine forall₂_congr ?_
  intro key hkey
  rw [Ne, null_in_cleaned_iff hdistinct hkept hkey hreasoning,
    Bool.not_eq_true, Bool.not_eq_true']

end Second

/-- The second pass leaves a cleaned value alone exactly if it is settled. -/
theorem strip_cleaned_eq_iff (hdistinct : value.distinct = true) :
    stripOpaqueFields (cleaned value) = cleaned value ↔
      isSettled value = true := by
  induction value using Json.nestedInduction with
  | leaf value harr hobj =>
    rw [cleaned_leaf harr hobj]
    cases value with
    | arr items => exact absurd rfl (harr items)
    | obj fields => exact absurd rfl (hobj fields)
    | null | bool | num | str => simp [stripOpaqueFields, isSettled]
  | arr items ih =>
    rw [distinct_arr_iff] at hdistinct
    have hid : items.map cleaned = (items.map cleaned).map id :=
      (List.map_id _).symm
    rw [cleaned_arr, stripOpaqueFields_arr, isSettled, settledItems_iff,
      Json.arr.injEq]
    conv_lhs => rw [hid]
    rw [List.map_id, List.map_map]
    conv_lhs => rw [map_inj_left]
    exact forall₂_congr fun item hitem => ih item hitem (hdistinct item hitem)
  | obj fields ih =>
    have hparts := distinct_obj_iff.mp hdistinct
    have hnodup := hparts.1
    rw [isSettled]
    cases hkept : keptFields fields with
    | none =>
      have hemptied := (keptFields_eq_none_iff hnodup).mp hkept
      rw [cleaned_obj_of_none hkept, hemptied]
      simp [stripOpaqueFields]
    | some kept =>
      rw [isEmptied_of_kept hnodup hkept, Bool.false_or]
      by_cases himage : isImage (.obj fields) = true
      · rw [cleaned_obj_of_image hnodup hkept himage, himage, Bool.true_or]
        exact iff_of_true stripOpaqueFields_omittedImage rfl
      · rw [Bool.not_eq_true] at himage
        have htype : holdsReasoning
            (.obj (Json.mapValues cleaned kept)) =
              holdsReasoning (.obj fields) := by
          rw [holdsReasoning, itemType_kept hnodup hkept asStr_cleaned,
            holdsReasoning]
        have hportable : ∀ field ∈ Json.mapValues cleaned kept,
            isOpaqueFieldKey field.1 = false := by
          intro field hfield
          obtain ⟨source, hsource, rfl⟩ := List.mem_map.mp hfield
          have hkey := isOpaqueFieldKey_of_kept hkept hsource
          exact hkey
        have hchildren : (∀ field ∈ Json.mapValues cleaned kept,
            stripOpaqueFields field.2 = field.2) ↔
              settledFields fields = true := by
          rw [settledFields_iff, Json.mapValues, List.forall_mem_map]
          constructor
          · intro hsettled field hfield hkey
            by_cases hstays : field ∈ kept
            · exact (ih field hfield (hparts.2 field hfield)).mp
                (hsettled field hstays)
            · -- only a null has been removed
              rw [mem_kept_iff hnodup hkept, not_and, not_and,
                not_not] at hstays
              rw [(hstays hfield hkey).2.2]
              rfl
          · intro hsettled field hfield
            have hmem := mem_of_mem_keptFields hkept hfield
            exact (ih field hmem (hparts.2 field hmem)).mpr
              (hsettled field hmem (isOpaqueFieldKey_of_kept hkept hfield))
        rw [cleaned_obj_of_plain hnodup hkept himage, himage,
          Bool.false_or, stripOpaqueFields_eq_self_iff hportable, htype,
          hchildren, Bool.and_eq_true, Bool.or_eq_true,
          Bool.not_eq_true']
        refine and_congr_left' ?_
        by_cases hreasoning : holdsReasoning (.obj fields) = true
        · rw [keepsVisible_iff hdistinct hkept hreasoning, hreasoning]
          simp
        · rw [Bool.not_eq_true] at hreasoning
          rw [hreasoning]
          simp

theorem stripImages_omittedImage : stripImages omittedImage = omittedImage := by
  have hplain : isImage omittedImage = false := by decide
  rw [omittedImage] at hplain ⊢
  rw [stripImages_obj, hplain, if_neg Bool.false_ne_true]
  simp [Json.mapValues, stripImages]

theorem stripImages_strip_cleaned (hdistinct : value.distinct = true) :
    stripImages (stripOpaqueFields (cleaned value)) =
      stripOpaqueFields (cleaned value) := by
  induction value using Json.nestedInduction with
  | leaf value harr hobj =>
    have hleaf := cleaned_leaf harr hobj
    have hpasses : stripImages (stripOpaqueFields value) = value := hleaf
    cases value with
    | arr items => exact absurd rfl (harr items)
    | obj fields => exact absurd rfl (hobj fields)
    | null | bool | num | str =>
      rw [hleaf, hpasses]
      simp [stripOpaqueFields]
  | arr items ih =>
    rw [distinct_arr_iff] at hdistinct
    rw [cleaned_arr, stripOpaqueFields_arr, stripImages_arr]
    simp only [List.map_map]
    refine congrArg Json.arr (map_congr_left ?_)
    intro item hitem
    exact ih item hitem (hdistinct item hitem)
  | obj fields ih =>
    have hparts := distinct_obj_iff.mp hdistinct
    have hnodup := hparts.1
    cases hkept : keptFields fields with
    | none =>
      rw [cleaned_obj_of_none hkept]
      simp [stripOpaqueFields, stripImages]
    | some kept =>
      by_cases himage : isImage (.obj fields) = true
      · rw [cleaned_obj_of_image hnodup hkept himage,
          stripOpaqueFields_omittedImage, stripImages_omittedImage]
      · rw [Bool.not_eq_true] at himage
        rw [cleaned_obj_of_plain hnodup hkept himage,
          stripOpaqueFields_obj]
        have hnodupCleaned :
            ((Json.mapValues cleaned kept).map Prod.fst).Nodup := by
          rw [map_fst_mapValues]
          exact nodup_kept hnodup hkept
        cases hagain : keptFields (Json.mapValues cleaned kept) with
        | none => rfl
        | some again =>
          have hplain : isImage
              (.obj (Json.mapValues stripOpaqueFields again)) =
                false := by
            rw [isImage, itemType_kept hnodupCleaned hagain
              asStr_stripOpaqueFields,
              itemType_kept hnodup hkept asStr_cleaned]
            rw [isImage] at himage
            exact himage
          change stripImages
            (.obj (Json.mapValues stripOpaqueFields again)) =
              .obj (Json.mapValues stripOpaqueFields again)
          rw [stripImages_obj, hplain, if_neg Bool.false_ne_true,
            mapValues_mapValues]
          refine congrArg Json.obj (mapValues_eq_iff.mpr ?_)
          intro field hfield
          obtain ⟨source, hsource, rfl⟩ := List.mem_map.mp
            (mem_of_mem_keptFields hagain hfield)
          have hmem := mem_of_mem_keptFields hkept hsource
          exact ih source hmem (hparts.2 source hmem)

/-! Which items are left out by the second pass. -/

theorem partText_cleaned {part : Json} (hdistinct : part.distinct = true) :
    partText (cleaned part) =
      if isEmptied part then none
      else if isImage part then some omittedImageText else partText part := by
  cases part with
  | obj fields =>
    have hnodup := (distinct_obj_iff.mp hdistinct).1
    cases hkept : keptFields fields with
    | none =>
      rw [cleaned_obj_of_none hkept,
        (keptFields_eq_none_iff hnodup).mp hkept, if_pos rfl]
      rfl
    | some kept =>
      rw [isEmptied_of_kept hnodup hkept, if_neg Bool.false_ne_true]
      by_cases himage : isImage (.obj fields) = true
      · rw [cleaned_obj_of_image hnodup hkept himage, if_pos himage]
        rfl
      · rw [if_neg himage]
        rw [Bool.not_eq_true] at himage
        have htext : isOpaqueFieldKey "text" = false := by decide
        have hcontent : isOpaqueFieldKey "content" = false := by decide
        rw [cleaned_obj_of_plain hnodup hkept himage, partText,
          asStr_get_mapValues asStr_cleaned,
          asStr_get_mapValues asStr_cleaned,
          asStr_get_kept hnodup hkept htext,
          asStr_get_kept hnodup hkept hcontent, partText]
  | arr values =>
    rw [cleaned_arr]
    rfl
  | null | bool | num | str =>
    simp [cleaned, stripOpaqueFields, stripImages, isEmptied, isImage,
      itemType, Json.get]

theorem firstText_eq {parts : List Json}
    (hdistinct : ∀ part ∈ parts, part.distinct = true) :
    firstText parts = ((parts.map cleaned).filterMap partText).head? := by
  induction parts with
  | nil => rfl
  | cons part rest ih =>
    rw [forall_mem_cons] at hdistinct
    rw [firstText, ih hdistinct.2, map_cons, filterMap_cons,
      partText_cleaned hdistinct.1]
    split
    · rfl
    · split
      · rfl
      · cases partText part <;> rfl

/-- What has no line break begins a line followed by others only if it begins
that line. -/
theorem begins_line_iff {front line rest : List Char}
    (hfront : ∀ c ∈ front, c ≠ '\n') :
    front <+: line ++ '\n' :: rest ↔ front <+: line := by
  induction front generalizing line with
  | nil => exact iff_of_true nil_prefix nil_prefix
  | cons c front ih =>
    rw [forall_mem_cons] at hfront
    cases line with
    | nil =>
      refine iff_of_false ?_ ?_
      · rw [nil_append, cons_prefix_cons]
        intro h
        exact hfront.1 h.1
      · intro h
        exact absurd (prefix_nil.mp h) (cons_ne_nil c front)
    | cons d line =>
      rw [cons_append, cons_prefix_cons, cons_prefix_cons,
        ih hfront.2]

theorem exists_toList_summaryPrefix :
    ∃ rest, officialSummaryPrefix.toList = 'A' :: rest := by
  have hfirst : ∃ rest,
      "Another language model started to solve this problem and ".toList =
        'A' :: rest := ⟨_, String.toList_ofList⟩
  obtain ⟨rest, hrest⟩ := hfirst
  unfold officialSummaryPrefix
  simp only [String.toList_append, append_assoc, hrest]
  exact ⟨_, rfl⟩

theorem not_startsWith_summaryPrefix {text : String}
    (htext : text.toList.head? ≠ some 'A') :
    startsWith text officialSummaryPrefix = false := by
  obtain ⟨rest, hfront⟩ := exists_toList_summaryPrefix
  rw [Bool.eq_false_iff, ne_eq, startsWith_iff, hfront]
  rintro ⟨tail, heq⟩
  rw [← heq] at htext
  exact htext rfl

theorem startsWith_joinLines (lines : List String) :
    startsWith (String.ofList (Text.joinLines (lines.map String.toList)))
        officialSummaryPrefix =
      lines.head?.any fun line => startsWith line officialSummaryPrefix := by
  cases lines with
  | nil => exact not_startsWith_summaryPrefix (by decide)
  | cons line rest =>
    cases rest with
    | nil =>
      rw [map_singleton, Text.joinLines, String.ofList_toList,
        head?_cons, any_some]
    | cons next rest =>
      rw [head?_cons, any_some, Bool.eq_iff_iff,
        startsWith_iff, startsWith_iff, String.toList_ofList,
        map_cons, map_cons, Text.joinLines]
      exact begins_line_iff fun c hc => (plain_summaryPrefix c hc).1

section LeftOut

variable {fields kept : List (String × Json)}
  (hdistinct : (Json.obj fields).distinct = true)
  (hkept : keptFields fields = some kept)

include hdistinct hkept

theorem itemText_cleaned :
    itemText (.obj (Json.mapValues cleaned kept)) =
      match (Json.obj fields).get "content" with
      | some (.str text) => some text
      | some (.arr parts) => some (String.ofList (Text.joinLines
          (((parts.map cleaned).filterMap partText).map String.toList)))
      | _ => none := by
  have hnodup := (distinct_obj_iff.mp hdistinct).1
  have hkey : isOpaqueFieldKey "content" = false := by decide
  rw [itemText, get_mapValues]
  cases hget : (Json.obj fields).get "content" with
  | none =>
    have hnone : (Json.obj kept).get "content" = none := by
      rw [eq_none_iff_forall_ne_some]
      intro value hvalue
      rw [get_kept_eq_some_iff hnodup hkept hkey, hget] at hvalue
      cases hvalue.1
    rw [hnone]
    rfl
  | some value =>
    by_cases hnull : value = .null
    · have hgone : ∀ other, (Json.obj kept).get "content" = some other →
          other = .null := by
        intro other hother
        rw [get_kept_eq_some_iff hnodup hkept hkey, hget] at hother
        rw [← some.inj hother.1]
        exact hnull
      rw [hnull]
      cases hfound : (Json.obj kept).get "content" with
      | none => rfl
      | some other =>
        rw [hgone other hfound]
        simp [cleaned, stripOpaqueFields, stripImages]
    · have hstays : (Json.obj kept).get "content" = some value := by
        rw [get_kept_eq_some_iff hnodup hkept hkey]
        exact ⟨hget, fun h => hnull h.2.2⟩
      rw [hstays, map_some]
      cases value with
      | arr parts => rw [cleaned_arr]
      | obj inner =>
        cases hinner : keptFields inner with
        | none => rw [cleaned_obj_of_none hinner]
        | some rest =>
          rw [cleaned_obj_of_some hinner]
          split
          · rename_i htext
            split at htext <;> cases htext
          · rename_i htext
            split at htext <;> cases htext
          · rfl
      | null | bool | num | str =>
        simp [cleaned, stripOpaqueFields, stripImages]

theorem isLeftOut_cleaned_plain (hout : isLeftOut (.obj fields) = false)
    (himage : isImage (.obj fields) = false) :
    isLeftOut (.obj (Json.mapValues cleaned kept)) =
      becomesSummary (.obj fields) := by
  have hparts := distinct_obj_iff.mp hdistinct
  have hnodup := hparts.1
  have hkey : isOpaqueFieldKey "role" = false := by decide
  have htype := itemType_kept hnodup hkept asStr_cleaned
  have hrole : ((Json.obj (Json.mapValues cleaned kept)).get "role").bind
      Json.asStr = ((Json.obj fields).get "role").bind Json.asStr := by
    rw [asStr_get_mapValues asStr_cleaned, asStr_get_kept hnodup hkept hkey]
  have hclass : classifyItem (.obj (Json.mapValues cleaned kept)) =
      classifyItem (.obj fields) := by
    rw [itemType, itemType] at htype
    simp only [classifyItem, htype, hrole]
  rw [isLeftOut, Bool.or_eq_false_iff, Bool.or_eq_false_iff] at hout
  obtain ⟨⟨hsystem, hsummary⟩, hkind⟩ := hout
  rw [isLeftOut, hclass, hsystem, htype, hkind, Bool.false_or, Bool.or_false,
    isSummaryItem, hrole, becomesSummary, himage, Bool.not_false,
    Bool.true_and]
  rw [isSummaryItem] at hsummary
  by_cases huser : ((Json.obj fields).get "role").bind Json.asStr = some "user"
  · rw [decide_eq_true huser, Bool.true_and] at hsummary ⊢
    rw [Bool.true_and, itemText_cleaned hdistinct hkept]
    rw [itemText] at hsummary
    cases hget : (Json.obj fields).get "content" with
    | none => rfl
    | some content =>
      rw [hget] at hsummary
      cases content with
      | str text => exact hsummary
      | arr parts =>
        have hcontent := distinct_get hdistinct hget
        rw [distinct_arr_iff] at hcontent
        change Option.any _ (some _) = _
        rw [any_some, startsWith_joinLines, ← firstText_eq hcontent]
      | null | bool | num | obj => rfl
  · rw [decide_eq_false huser, Bool.false_and, Bool.false_and]

end LeftOut

theorem isLeftOut_cleaned {item : Json} (hdistinct : item.distinct = true)
    (hout : isLeftOut item = false) (hemptied : isEmptied item = false) :
    isLeftOut (cleaned item) = becomesSummary item := by
  cases item with
  | obj fields =>
    have hnodup := (distinct_obj_iff.mp hdistinct).1
    cases hkept : keptFields fields with
    | none =>
      rw [(keptFields_eq_none_iff hnodup).mp hkept] at hemptied
      cases hemptied
    | some kept =>
      by_cases himage : isImage (.obj fields) = true
      · have hstays : isLeftOut omittedImage = false := by decide
        rw [cleaned_obj_of_image hnodup hkept himage, hstays,
          becomesSummary, himage]
        rfl
      · rw [Bool.not_eq_true] at himage
        rw [cleaned_obj_of_plain hnodup hkept himage]
        exact isLeftOut_cleaned_plain hdistinct hkept hout himage
  | arr values =>
    rw [cleaned_arr]
    exact hout
  | null | bool | num | str =>
    simp [cleaned, stripOpaqueFields, stripImages, becomesSummary, Json.get,
      hout]

/-- An item is found again by the second pass exactly if it is settled and
does not become a summary. -/
theorem portableValue_cleaned_iff {item : Json}
    (hdistinct : item.distinct = true) (hout : isLeftOut item = false)
    (hemptied : isEmptied item = false) (hnull : item ≠ .null) :
    portableValue (cleaned item) = some (cleaned item) ↔
      isSettled item = true ∧ becomesSummary item = false := by
  have hcleaned : cleaned item ≠ .null := by
    rw [Ne, cleaned_eq_null_iff hdistinct, hemptied]
    simp [hnull]
  have hagain : cleaned (cleaned item) = stripOpaqueFields (cleaned item) :=
    stripImages_strip_cleaned item hdistinct
  rw [portableValue, isLeftOut_cleaned hdistinct hout hemptied, hagain,
    ← strip_cleaned_eq_iff item hdistinct]
  by_cases hsummary : becomesSummary item = true
  · simp [hsummary]
  · rw [if_neg hsummary]
    rw [Bool.not_eq_true] at hsummary
    by_cases hstripped : stripOpaqueFields (cleaned item) = .null
    · rw [if_pos hstripped, hstripped]
      simp [Ne.symm hcleaned]
    · rw [if_neg hstripped, some.injEq]
      simp [hsummary]

/-- Sanitizing again changes nothing exactly if every item that is kept is
found again. -/
theorem sanitize_sanitize_iff {items : List Json}
    (hdistinct : ∀ item ∈ items, item.distinct = true) :
    sanitizePortableHistory (sanitizePortableHistory items) =
        sanitizePortableHistory items ↔
      ∀ item ∈ items, isLeftOut item = false → isEmptied item = false →
        isSettled item = true ∧ becomesSummary item = false := by
  rw [sanitizePortableHistory_eq (sanitizePortableHistory items),
    filterMap_eq_self_iff]
  constructor
  · intro hfound item hitem hout hemptied
    by_cases hnull : item = .null
    · subst hnull
      exact ⟨rfl, rfl⟩
    · have hstripped : stripOpaqueFields item ≠ .null := by
        rw [Ne, stripOpaqueFields_eq_null_iff (hdistinct item hitem), hemptied]
        simp [hnull]
      have hvalue : portableValue item = some (cleaned item) := by
        rw [portableValue, hout, if_neg Bool.false_ne_true, if_neg hstripped]
      exact (portableValue_cleaned_iff (hdistinct item hitem) hout hemptied
        hnull).mp (hfound _ (mem_sanitizePortableHistory.mpr
          ⟨item, hitem, hvalue⟩))
  · intro hsettled value hvalue
    obtain ⟨item, hitem, hportable⟩ := mem_sanitizePortableHistory.mp hvalue
    have hcleaned := exists_cleaned_of_portableValue hportable
    rw [portableValue] at hportable
    split at hportable
    · cases hportable
    · rename_i hout
      split at hportable
      · cases hportable
      · rename_i hstripped
        rw [Bool.not_eq_true] at hout
        rw [stripOpaqueFields_eq_null_iff (hdistinct item hitem), not_or,
          Bool.not_eq_true] at hstripped
        rw [hcleaned]
        exact (portableValue_cleaned_iff (hdistinct item hitem) hout
          hstripped.2 hstripped.1).mpr (hsettled item hitem hout hstripped.2)

/-- What is claimed of a portable history. -/
structure PortableHistory (items : List Json) : Prop where
  clean : ∀ value ∈ sanitizePortableHistory items, ∀ path,
    findOpaqueFieldPath value path = none
  accepted : ∀ checkpoint : CanonicalCheckpoint,
    validateCanonicalCheckpoint
        { checkpoint with retainedTailItems := sanitizePortableHistory items } =
      validateCanonicalCheckpoint
        { checkpoint with retainedTailItems := [] }
  once : sanitizePortableHistory (sanitizePortableHistory items) =
    sanitizePortableHistory items
  provenance : ∀ identities : List String, identities.length = items.length →
    ∃ portable, sanitizePortableHistoryWithProvenance items identities =
      .ok portable ∧ SameHistory items identities portable

/-- A history is portable as claimed exactly if every item that is kept is
settled and does not become a summary. -/
theorem portableHistory_iff (items : List Json)
    (hdistinct : ∀ item ∈ items, item.distinct = true) :
    PortableHistory items ↔
      ∀ item ∈ items, isLeftOut item = false → isEmptied item = false →
        isSettled item = true ∧ becomesSummary item = false := by
  rw [← sanitize_sanitize_iff hdistinct]
  constructor
  · intro hportable
    exact hportable.once
  · intro honce
    exact ⟨findOpaqueFieldPath_sanitized, fun checkpoint =>
      validate_sanitized_tail checkpoint items, honce, fun identities hlength =>
        sanitizeWithProvenance_same hlength⟩

namespace HollowReasoning

/-- A reasoning item whose content holds ciphertext only. -/
def hollow : Json :=
  .obj [("type", .str "reasoning"),
    ("content", .obj [("encrypted_content", .str "gAAAA")])]

/-- A message with a text behind a blank reasoning part. -/
def behindBlank (text : String) : Json :=
  .obj [("type", .str "message"), ("role", .str "user"),
    ("content", .arr [
      .obj [("type", .str "reasoning"), ("text", .str " ")],
      .obj [("type", .str "input_text"), ("text", .str text)]])]

/-- A message that quotes a summary there. -/
def quoting : Json := behindBlank officialSummaryPrefix

/-- The blank line in front keeps it from being a summary. -/
theorem isLeftOut_quoting : isLeftOut quoting = false := by
  have htext (text : String) : itemText (behindBlank text) =
      some (String.ofList (Text.joinLines ([" ", text].map String.toList))) :=
    rfl
  have hsummary : isSummaryItem quoting = false := by
    rw [isSummaryItem, quoting, htext, any_some, startsWith_joinLines,
      head?_cons, any_some,
      not_startsWith_summaryPrefix (by decide), Bool.and_false]
  rw [isLeftOut, hsummary]
  decide

/-- The blank part is emptied, and the second pass sees the quotation. -/
theorem becomesSummary_quoting : becomesSummary quoting = true := by
  have hblank : isEmptied (.obj [("type", .str "reasoning"),
      ("text", .str " ")]) = true := by decide
  have hquoted (text : String) : isEmptied (.obj
      [("type", .str "input_text"), ("text", .str text)]) = false := by
    simp [isEmptied, holdsReasoning, itemType, Json.get, Json.asStr]
  have hfirst (text : String) : becomesSummary (behindBlank text) =
      startsWith text officialSummaryPrefix := by
    obtain ⟨front, hfront⟩ : ∃ front, officialSummaryPrefix = front := ⟨_, rfl⟩
    rw [becomesSummary, hfront]
    simp [behindBlank, firstText, hblank, hquoted, isImage, itemType, partText,
      Json.get, Json.asStr]
  rw [quoting, hfirst, startsWith_iff]

theorem distinct_hollow : ∀ item ∈ [hollow], item.distinct = true := by
  decide

theorem distinct_quoting : ∀ item ∈ [quoting], item.distinct = true := by
  decide

/-- A message and a reasoning item with a visible summary. -/
def visible : List Json :=
  [.obj [("type", .str "message"), ("role", .str "user"),
      ("content", .arr [.obj [("type", .str "input_text"),
        ("text", .str "Go on.")]])],
    .obj [("type", .str "reasoning"),
      ("summary", .arr [.obj [("type", .str "summary_text"),
        ("text", .str "A plan.")]]), ("encrypted_content", .str "gAAAA")]]

theorem visible_summary_is_portable : PortableHistory visible := by
  have hgo : startsWith "Go on." officialSummaryPrefix = false :=
    not_startsWith_summaryPrefix (by decide)
  obtain ⟨front, hfront⟩ : ∃ front, officialSummaryPrefix = front := ⟨_, rfl⟩
  refine (portableHistory_iff visible (by decide)).mpr ?_
  intro item hmem _ _
  rcases mem_cons.mp hmem with rfl | hmem
  · refine ⟨by decide, ?_⟩
    rw [hfront] at hgo
    rw [becomesSummary, hfront]
    simp [firstText, isEmptied, holdsReasoning, isImage, itemType, partText,
      Json.get, Json.asStr, hgo]
  · obtain rfl := mem_singleton.mp hmem
    exact ⟨by decide, by decide⟩

/-- Both are kept by the first pass and dropped by the second. -/
theorem second_pass_drops_more :
    ¬ PortableHistory [hollow] ∧ ¬ PortableHistory [quoting] := by
  constructor
  · intro hportable
    have hsettled := (sanitize_sanitize_iff distinct_hollow).mp hportable.once
      hollow mem_cons_self (by decide) (by decide)
    exact absurd hsettled.1 (by decide)
  · intro hportable
    have hsettled := (sanitize_sanitize_iff distinct_quoting).mp hportable.once
      quoting mem_cons_self isLeftOut_quoting (by decide)
    rw [becomesSummary_quoting] at hsettled
    cases hsettled.2

end HollowReasoning

end Vellum.Proxy
