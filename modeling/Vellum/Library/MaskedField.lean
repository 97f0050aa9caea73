/-
JSON values that agree apart from the field of one name.  Masking forgets the
values of that field, and the field itself where it ends an object; taking the
field out of an object then gives the same fields as before, in the same order.
-/
import Vellum.Library.Json

namespace Vellum

open List

namespace Json

variable (secret : String)

/-- The fields without a secret one at their end. -/
def withoutTrailing (fields : List (String × Json)) : List (String × Json) :=
  if fields.getLast?.any fun field => field.1 = secret then fields.dropLast
  else fields

mutual

/-- The value with its secret fields masked. -/
def mask : Json → Json
  | .obj fields => .obj (withoutTrailing secret (maskFields fields))
  | .arr items => .arr (maskItems items)
  | value => value

def maskFields : List (String × Json) → List (String × Json)
  | [] => []
  | (name, value) :: rest =>
    (name, if name = secret then .null else mask value) :: maskFields rest

def maskItems : List Json → List Json
  | [] => []
  | item :: rest => mask item :: maskItems rest

end

/-- The same names in the same places, with the same values apart from the
secret one's. -/
def AgreeOff : List (String × Json) → List (String × Json) → Prop :=
  List.Forall₂ fun left right =>
    left.1 = right.1 ∧ (left.1 ≠ secret → left.2 = right.2)

variable {secret} {left right : List (String × Json)}

variable {name : String} {fields : List (String × Json)} (value : Json)

theorem withoutTrailing_append (fields : List (String × Json)) :
    withoutTrailing secret (fields ++ [(secret, value)]) = fields := by
  simp [withoutTrailing]

variable (secret) in
theorem withoutTrailing_cases (fields : List (String × Json)) :
    withoutTrailing secret fields = fields ∨
      ∃ value, fields = withoutTrailing secret fields ++ [(secret, value)] := by
  induction fields using reverseRecOn with
  | nil => exact Or.inl rfl
  | append_singleton front last _ =>
    by_cases hlast : last.1 = secret
    · refine Or.inr ⟨last.2, ?_⟩
      obtain ⟨name, value⟩ := last
      obtain rfl : name = secret := hlast
      rw [withoutTrailing_append]
    · exact Or.inl (by simp [withoutTrailing, hlast])

theorem removeField_of_forall_ne (hnone : ∀ field ∈ fields, field.1 ≠ name) :
    removeField name fields = fields := by
  have hindex : fields.findIdx? (fun field => field.1 = name) = none := by
    rw [findIdx?_eq_none_iff]
    intro field hfield
    simpa using hnone field hfield
  rw [removeField, hindex]

theorem forall_ne_removeField (habsent : ∀ field ∈ fields, field.1 ≠ name)
    (key : String) : ∀ field ∈ removeField key fields, field.1 ≠ name := by
  rcases exists_first_field key fields with hnone |
    ⟨front, value, rest, rfl, hfront⟩
  · rw [removeField_of_forall_ne hnone]
    exact habsent
  · rw [removeField_append key value hfront]
    rw [forall_mem_append, forall_mem_cons] at habsent
    refine forall_mem_append.mpr ⟨habsent.1, ?_⟩
    cases rest using reverseRecOn with
    | nil =>
      intro field hfield
      cases hfield
    | append_singleton rest last =>
      have hrest := forall_mem_append.mp habsent.2.2
      simp only [getLast?_concat, dropLast_concat]
      exact forall_mem_cons.mpr ⟨hrest.2 last mem_cons_self, hrest.1⟩

theorem notMem_removeField (hnodup : (fields.map Prod.fst).Nodup)
    (name : String) : name ∉ (removeField name fields).map Prod.fst := by
  rcases exists_first_field name fields with hnone |
    ⟨front, value, rest, rfl, hfront⟩
  · rw [removeField_of_forall_ne hnone, mem_map]
    rintro ⟨field, hfield, hname⟩
    exact hnone field hfield hname
  · rw [removeField_append name value hfront]
    have hrest : name ∉ rest.map Prod.fst := by
      rw [map_append, map_cons, nodup_append] at hnodup
      exact (nodup_cons.mp hnodup.2.1).1
    have hkept : name ∉ (front ++ rest).map Prod.fst := by
      rw [map_append, mem_append, not_or]
      refine ⟨fun hmem => ?_, hrest⟩
      obtain ⟨field, hfield, hname⟩ := mem_map.mp hmem
      exact hfront field hfield hname
    cases rest using reverseRecOn with
    | nil => exact hkept
    | append_singleton rest last =>
      have hperm : (front ++ last :: rest).Perm (front ++ (rest ++ [last])) :=
        (perm_append_singleton last rest).symm.append_left front
      simp only [getLast?_concat, dropLast_concat]
      exact fun hmem => hkept ((hperm.map Prod.fst).mem_iff.mp hmem)

/-- A secret field at the end leaves no trace when it is taken out behind
another one. -/
theorem removeField_trailing (hname : name ≠ secret)
    (habsent : ∀ field ∈ fields, field.1 ≠ secret) (value : Json) :
    removeField secret (removeField name (fields ++ [(secret, value)])) =
      removeField name fields := by
  rcases exists_first_field name fields with hnone |
    ⟨front, old, rest, rfl, hfront⟩
  · have hnone' : ∀ field ∈ fields ++ [(secret, value)], field.1 ≠ name := by
      rw [forall_mem_append]
      exact ⟨hnone, by simpa using Ne.symm hname⟩
    rw [removeField_of_forall_ne hnone, removeField_of_forall_ne hnone',
      removeField_append secret value habsent []]
    exact append_nil fields
  · rw [forall_mem_append, forall_mem_cons] at habsent
    rw [append_assoc, cons_append, removeField_append name old hfront,
      removeField_append name old hfront, getLast?_concat]
    simp only [dropLast_concat]
    exact removeField_append secret value habsent.1 rest

theorem insertField_append_of_get {found : Json}
    (hget : (obj fields).get name = some found) (value : Json)
    (rest : List (String × Json)) :
    insertField name value (fields ++ rest) =
      insertField name value fields ++ rest := by
  induction fields with
  | nil => cases hget
  | cons field fields ih =>
    rw [get_cons] at hget
    rw [cons_append, insertField, insertField]
    split
    · rfl
    · rename_i hne
      rw [if_neg hne] at hget
      rw [ih hget, cons_append]

theorem forall_ne_insertField (hname : name ≠ secret) {value : Json}
    (habsent : ∀ field ∈ fields, field.1 ≠ secret) :
    ∀ field ∈ insertField name value fields, field.1 ≠ secret := by
  induction fields with
  | nil => simpa [insertField] using hname
  | cons field fields ih =>
    rw [forall_mem_cons] at habsent
    rw [insertField]
    split
    · exact forall_mem_cons.mpr ⟨hname, habsent.2⟩
    · exact forall_mem_cons.mpr ⟨habsent.1, ih habsent.2⟩

/-- A secret field at the end leaves no trace when it is taken out behind an
inserted one. -/
theorem insertField_trailing (hname : name ≠ secret)
    (habsent : ∀ field ∈ fields, field.1 ≠ secret) (value old : Json) :
    removeField secret (insertField name value (fields ++ [(secret, old)])) =
      insertField name value fields := by
  have hend (front : List (String × Json))
      (hfront : ∀ field ∈ front, field.1 ≠ secret) :
      removeField secret (front ++ [(secret, old)]) = front := by
    rw [removeField_append secret old hfront []]
    exact append_nil front
  cases hget : (obj fields).get name with
  | none =>
    have hget' : (obj (fields ++ [(secret, old)])).get name = none := by
      rw [get_eq_none_iff] at hget ⊢
      simpa [hname] using hget
    have hmoved : ∀ field ∈ fields ++ [(name, value)], field.1 ≠ secret :=
      forall_mem_append.mpr ⟨habsent, by simpa using hname⟩
    rw [insertField_of_get_none hget, insertField_of_get_none hget',
      append_assoc, cons_append, removeField_append secret old habsent]
    rfl
  | some found =>
    rw [insertField_append_of_get hget]
    exact hend _ fun field hfield => forall_ne_insertField hname habsent field hfield

/-! What masking keeps. -/

theorem maskFields_eq_map (fields : List (String × Json)) :
    maskFields secret fields = fields.map fun field =>
      (field.1, if field.1 = secret then .null else mask secret field.2) := by
  induction fields with
  | nil => rfl
  | cons field rest ih =>
    obtain ⟨name, value⟩ := field
    rw [maskFields, ih, map_cons]

theorem maskItems_eq_map (items : List Json) :
    maskItems secret items = items.map (mask secret) := by
  induction items with
  | nil => rfl
  | cons item rest ih => rw [maskItems, ih, map_cons]

variable (secret) in
theorem names_maskFields (fields : List (String × Json)) :
    (maskFields secret fields).map Prod.fst = fields.map Prod.fst := by
  rw [maskFields_eq_map, map_map]
  rfl

variable (secret) in
theorem withoutTrailing_prefix (fields : List (String × Json)) :
    withoutTrailing secret fields <+: fields := by
  rw [withoutTrailing]
  split
  · exact dropLast_prefix fields
  · exact prefix_refl fields

theorem get_withoutTrailing (hname : name ≠ secret)
    (fields : List (String × Json)) :
    (obj (withoutTrailing secret fields)).get name = (obj fields).get name := by
  rcases withoutTrailing_cases secret fields with hsame |
    ⟨value, hfields⟩
  · rw [hsame]
  · conv_rhs => rw [hfields]
    simp [get, find?_append, Ne.symm hname]

theorem get_mask (hname : name ≠ secret) (value : Json) :
    (mask secret value).get name = (value.get name).map (mask secret) := by
  cases value with
  | obj fields =>
    rw [mask, get_withoutTrailing hname]
    induction fields with
    | nil => rfl
    | cons field rest ih =>
      obtain ⟨key, value⟩ := field
      rw [maskFields, get_cons, get_cons, ih]
      by_cases hkey : key = name
      · rw [if_pos hkey, if_pos hkey, if_neg (hkey ▸ hname), Option.map_some]
      · rw [if_neg hkey, if_neg hkey]
  | null | bool | num | str | arr => rfl

@[simp]
theorem asStr_mask : (mask secret value).asStr = value.asStr := by
  cases value <;> rfl

theorem asArr_mask :
    (mask secret value).asArr = value.asArr.map (List.map (mask secret)) := by
  cases value with
  | arr items => simp [mask, asArr, maskItems_eq_map]
  | null | bool | num | str | obj => rfl

mutual

theorem distinct_mask :
    (value : Json) → value.distinct = true → (mask secret value).distinct = true
  | .obj fields, hdistinct => by
      rw [distinct_obj_iff] at hdistinct
      have hkept := withoutTrailing_prefix secret (maskFields secret fields)
      have hnodup := hdistinct.1
      rw [← names_maskFields secret] at hnodup
      rw [mask, distinct_obj_iff]
      exact ⟨hnodup.sublist (hkept.sublist.map _), fun field hfield =>
        distinct_maskFields fields hdistinct.2 field (hkept.subset hfield)⟩
  | .arr items, hdistinct =>
    distinct_arr_iff.mpr (distinct_maskItems items (distinct_arr_iff.mp hdistinct))
  | .null, _ | .bool _, _ | .num _, _ | .str _, _ => rfl

theorem distinct_maskFields :
    (fields : List (String × Json)) →
      (∀ field ∈ fields, field.2.distinct = true) →
        ∀ field ∈ maskFields secret fields, field.2.distinct = true
  | [], _ => by simp [maskFields]
  | (name, value) :: rest, hdistinct => by
      rw [forall_mem_cons] at hdistinct
      rw [maskFields, forall_mem_cons]
      refine ⟨?_, distinct_maskFields rest hdistinct.2⟩
      by_cases hname : name = secret
      · rw [if_pos hname]
        rfl
      · rw [if_neg hname]
        exact distinct_mask value hdistinct.1

theorem distinct_maskItems :
    (items : List Json) → (∀ item ∈ items, item.distinct = true) →
      ∀ item ∈ maskItems secret items, item.distinct = true
  | [], _ => by simp [maskItems]
  | item :: rest, hdistinct => by
      rw [forall_mem_cons] at hdistinct
      rw [maskItems, forall_mem_cons]
      exact ⟨distinct_mask item hdistinct.1, distinct_maskItems rest hdistinct.2⟩

end

theorem withoutTrailing_idem (hnodup : (fields.map Prod.fst).Nodup) :
    withoutTrailing secret (withoutTrailing secret fields) =
      withoutTrailing secret fields := by
  rcases withoutTrailing_cases secret fields with hsame | ⟨value, hfields⟩
  · rw [hsame, hsame]
  · rcases withoutTrailing_cases secret (withoutTrailing secret fields) with
      hsame | ⟨other, htwice⟩
    · exact hsame
    · rw [hfields, map_append, nodup_append] at hnodup
      have hmem : secret ∈ (withoutTrailing secret fields).map Prod.fst := by
        rw [htwice]
        simp
      exact absurd rfl (hnodup.2.2 secret hmem secret mem_cons_self)

theorem withoutTrailing_map (change : String × Json → String × Json)
    (hname : ∀ field, (change field).1 = field.1)
    (fields : List (String × Json)) :
    withoutTrailing secret (fields.map change) =
      (withoutTrailing secret fields).map change := by
  rw [withoutTrailing, withoutTrailing, getLast?_map]
  cases fields.getLast? with
  | none => rfl
  | some last =>
    simp only [Option.map_some, Option.any_some, hname]
    split
    · exact (map_dropLast ..).symm
    · rfl

mutual

theorem mask_mask :
    (value : Json) → value.distinct = true →
      mask secret (mask secret value) = mask secret value
  | .obj fields, hdistinct => by
      rw [distinct_obj_iff] at hdistinct
      have hnodup := hdistinct.1
      rw [← names_maskFields secret] at hnodup
      have hcommute : maskFields secret
          (withoutTrailing secret (maskFields secret fields)) =
            withoutTrailing secret (maskFields secret (maskFields secret fields)) := by
        rw [maskFields_eq_map, maskFields_eq_map (maskFields secret fields)]
        refine (withoutTrailing_map _ ?_ _).symm
        intro field
        rfl
      rw [mask, mask, hcommute, maskFields_maskFields fields hdistinct.2,
        withoutTrailing_idem hnodup]
  | .arr items, hdistinct => by
      rw [mask, mask, maskItems_maskItems items (distinct_arr_iff.mp hdistinct)]
  | .null, _ | .bool _, _ | .num _, _ | .str _, _ => rfl

theorem maskFields_maskFields :
    (fields : List (String × Json)) →
      (∀ field ∈ fields, field.2.distinct = true) →
        maskFields secret (maskFields secret fields) = maskFields secret fields
  | [], _ => rfl
  | (name, value) :: rest, hdistinct => by
      rw [forall_mem_cons] at hdistinct
      rw [maskFields, maskFields, maskFields_maskFields rest hdistinct.2]
      by_cases hname : name = secret
      · rw [if_pos hname, if_pos hname]
      · rw [if_neg hname, if_neg hname, mask_mask value hdistinct.1]

theorem maskItems_maskItems :
    (items : List Json) → (∀ item ∈ items, item.distinct = true) →
      maskItems secret (maskItems secret items) = maskItems secret items
  | [], _ => rfl
  | item :: rest, hdistinct => by
      rw [forall_mem_cons] at hdistinct
      rw [maskItems, maskItems, mask_mask item hdistinct.1,
        maskItems_maskItems rest hdistinct.2]

end

namespace AgreeOff

theorem refl (fields : List (String × Json)) : AgreeOff secret fields fields :=
  List.forall₂_same.mpr fun _ _ => ⟨rfl, fun _ => rfl⟩

theorem names (hagree : AgreeOff secret left right) :
    left.map Prod.fst = right.map Prod.fst := by
  induction hagree with
  | nil => rfl
  | cons hfield _ ih => rw [map_cons, map_cons, hfield.1, ih]

theorem eq_of_notMem (hagree : AgreeOff secret left right)
    (habsent : ∀ field ∈ left, field.1 ≠ secret) : left = right := by
  induction hagree with
  | nil => rfl
  | cons hfield _ ih =>
    rw [forall_mem_cons] at habsent
    rw [ih habsent.2, Prod.ext hfield.1 (hfield.2 habsent.1)]

theorem insertField (hagree : AgreeOff secret left right) (name : String)
    (value : Json) :
    AgreeOff secret (insertField name value left)
      (Json.insertField name value right) := by
  induction hagree with
  | nil => exact refl _
  | @cons x y _ _ hfield hrest ih =>
    rw [Json.insertField, Json.insertField, ← hfield.1]
    split
    · exact .cons ⟨rfl, fun _ => rfl⟩ hrest
    · exact .cons hfield ih

/-- What moves into the place of a field agrees as well. -/
theorem filled {front front' rest rest' : List (String × Json)}
    (hfront : AgreeOff secret front front')
    (hrest : AgreeOff secret rest rest') :
    AgreeOff secret
      (front ++ match rest.getLast? with
        | some last => last :: rest.dropLast
        | none => [])
      (front' ++ match rest'.getLast? with
        | some last => last :: rest'.dropLast
        | none => []) := by
  refine rel_append hfront ?_
  cases rest using reverseRecOn with
  | nil =>
    obtain rfl := List.forall₂_nil_left_iff.mp hrest
    exact .nil
  | append_singleton rest last =>
    cases rest' using reverseRecOn with
    | nil => exact absurd hrest.length_eq (by simp)
    | append_singleton rest' last' =>
      rw [AgreeOff, ← List.forall₂_reverse_iff, reverse_concat,
        reverse_concat] at hrest
      obtain ⟨hlast, hinit⟩ := List.forall₂_cons.mp hrest
      simp only [getLast?_concat, dropLast_concat]
      exact .cons hlast (List.forall₂_reverse_iff.mp hinit)

theorem removeField (hagree : AgreeOff secret left right) (name : String) :
    AgreeOff secret (removeField name left) (Json.removeField name right) := by
  rcases exists_first_field name left with hnone |
    ⟨front, value, rest, rfl, hfront⟩
  · have hnone' : ∀ field ∈ right, field.1 ≠ name := by
      intro field hfield hname
      have hmem : field.1 ∈ left.map Prod.fst :=
        hagree.names ▸ mem_map_of_mem hfield
      obtain ⟨other, hother, hsame⟩ := mem_map.mp hmem
      exact hnone other hother (hsame.trans hname)
    rw [removeField_of_forall_ne hnone, removeField_of_forall_ne hnone']
    exact hagree
  · have hhead := List.forall₂_take front.length hagree
    have htail := List.forall₂_drop front.length hagree
    rw [take_left] at hhead
    rw [drop_left] at htail
    obtain ⟨field', rest', hfield, hrest, hdrop⟩ :=
      List.forall₂_cons_left_iff.mp htail
    have hfront' : ∀ field ∈ right.take front.length, field.1 ≠ name := by
      intro field hmem hname
      have hold : field.1 ∈ front.map Prod.fst :=
        names hhead ▸ mem_map_of_mem hmem
      obtain ⟨other, hother, hsame⟩ := mem_map.mp hold
      exact hfront other hother (hsame.trans hname)
    obtain ⟨key, value'⟩ := field'
    obtain rfl : name = key := hfield.1
    rw [← take_append_drop front.length right, hdrop,
      removeField_append name value hfront,
      removeField_append name value' hfront']
    exact filled hhead hrest

theorem removeField_secret (hagree : AgreeOff secret left right)
    (hnodup : (left.map Prod.fst).Nodup) :
    Json.removeField secret left = Json.removeField secret right := by
  refine (hagree.removeField secret).eq_of_notMem fun field hfield hname => ?_
  exact notMem_removeField hnodup secret
    (mem_map.mpr ⟨field, hfield, hname⟩)

end AgreeOff

end Json

end Vellum
