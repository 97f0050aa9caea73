/-
The fields of an object whose names differ.  Taking a field out moves the last
one to its place, so what is left is the other fields in some order; which
field has which name does not depend on the order.
-/
import Vellum.Library.Json

namespace Vellum

open List

namespace Json

variable {names : List String} {fields : List (String × Json)} {name : String}
  {field : String × Json} {value : Json}

/-- A field is found by its name exactly if it is there. -/
theorem get_eq_some_iff_mem (hnodup : (fields.map Prod.fst).Nodup) :
    (obj fields).get name = some value ↔ (name, value) ∈ fields := by
  induction fields with
  | nil => simp [get]
  | cons field rest ih =>
    rw [map_cons, nodup_cons] at hnodup
    rw [get_cons, mem_cons]
    split
    · rename_i hname
      constructor
      · intro hvalue
        rw [← hname, ← Option.some.inj hvalue]
        exact Or.inl rfl
      · rintro (hhere | hlater)
        · rw [← hhere]
        · have hmem : name ∈ rest.map Prod.fst :=
            mem_map.mpr ⟨(name, value), hlater, rfl⟩
          rw [← hname] at hmem
          exact absurd hmem hnodup.1
    · rename_i hname
      rw [ih hnodup.2]
      constructor
      · exact Or.inr
      · rintro (hhere | hlater)
        · exact absurd (congrArg Prod.fst hhere).symm hname
        · exact hlater

theorem removeField_of_get_none (hget : (obj fields).get name = none) :
    removeField name fields = fields := by
  have hindex : fields.findIdx? (fun field => field.1 = name) = none := by
    rw [findIdx?_eq_none_iff]
    intro field hfield
    rw [decide_eq_false_iff_not]
    intro hname
    exact get_eq_none_iff.mp hget (mem_map.mpr ⟨field, hfield, hname⟩)
  rw [removeField, hindex]

/-- Nothing is added. -/
theorem mem_of_mem_removeField (hfield : field ∈ removeField name fields) :
    field ∈ fields := by
  rcases exists_first_field name fields with hnone |
    ⟨front, value, rest, rfl, -⟩
  · have habsent : (obj fields).get name = none := by
      rw [get_eq_none_iff, mem_map]
      rintro ⟨other, hother, hname⟩
      exact hnone other hother hname
    rwa [removeField_of_get_none habsent] at hfield
  · rw [removeField] at hfield
    split at hfield
    · rename_i last _ hlast
      split at hfield
      · exact dropLast_subset _ hfield
      · rcases mem_or_eq_of_mem_set (dropLast_subset _ hfield) with
          hmem | rfl
        · exact hmem
        · exact mem_of_getLast? hlast
    · exact hfield

theorem length_removeField_lt (hget : (obj fields).get name = some value) :
    (removeField name fields).length < fields.length := by
  rcases exists_first_field name fields with hnone |
    ⟨front, first, rest, rfl, hfront⟩
  · have habsent : (obj fields).get name = none := by
      rw [get_eq_none_iff, mem_map]
      rintro ⟨field, hfield, hname⟩
      exact hnone field hfield hname
    rw [habsent] at hget
    cases hget
  · rw [removeField_append name first hfront]
    cases rest using reverseRecOn with
    | nil => simp
    | append_singleton rest last => simp

theorem removeField_perm (hnodup : (fields.map Prod.fst).Nodup)
    (name : String) :
    (removeField name fields).Perm
      (fields.filter fun field => field.1 ≠ name) := by
  rcases exists_first_field name fields with hnone |
    ⟨front, value, rest, rfl, hfront⟩
  · have habsent : (obj fields).get name = none := by
      rw [get_eq_none_iff, mem_map]
      rintro ⟨field, hfield, hname⟩
      exact hnone field hfield hname
    have hall : fields.filter (fun field => field.1 ≠ name) = fields := by
      rw [filter_eq_self]
      intro field hfield
      exact decide_eq_true (hnone field hfield)
    rw [removeField_of_get_none habsent, hall]
  · have hrest : ∀ field ∈ rest, field.1 ≠ name := by
      rw [map_append, map_cons, nodup_append] at hnodup
      intro field hfield hname
      exact (nodup_cons.mp hnodup.2.1).1
        (mem_map.mpr ⟨field, hfield, hname⟩)
    have hkept : (front ++ (name, value) :: rest).filter
        (fun field => field.1 ≠ name) = front ++ rest := by
      rw [filter_append, filter_cons, if_neg (by simp),
        filter_eq_self.mpr, filter_eq_self.mpr]
      · intro field hfield
        exact decide_eq_true (hrest field hfield)
      · intro field hfield
        exact decide_eq_true (hfront field hfield)
    rw [removeField_append name value hfront, hkept]
    cases rest using reverseRecOn with
    | nil => exact List.Perm.refl _
    | append_singleton rest last =>
      simp only [getLast?_concat, dropLast_concat]
      exact (perm_append_singleton last rest).symm.append_left front

theorem get_removeField_self (hnodup : (fields.map Prod.fst).Nodup)
    (name : String) : (obj (removeField name fields)).get name = none := by
  rw [get_eq_none_iff]
  intro hname
  obtain ⟨field, hfield, hsame⟩ := mem_map.mp hname
  have hkept := (removeField_perm hnodup name).mem_iff.mp hfield
  exact of_decide_eq_true (mem_filter.mp hkept).2 hsame

/-- Take out the fields of these names whose value is null. -/
def dropNulls (names : List String) (fields : List (String × Json)) :
    List (String × Json) :=
  names.foldl (fun fields name =>
    if (obj fields).get name = some .null then removeField name fields
    else fields) fields

theorem dropNulls_cons (name : String) (names : List String)
    (fields : List (String × Json)) :
    dropNulls (name :: names) fields = dropNulls names
      (if (obj fields).get name = some .null then removeField name fields
      else fields) :=
  rfl

theorem mem_of_mem_dropNulls (hfield : field ∈ dropNulls names fields) :
    field ∈ fields := by
  induction names generalizing fields with
  | nil => exact hfield
  | cons name names ih =>
    rw [dropNulls_cons] at hfield
    have hmem := ih hfield
    split at hmem
    · exact mem_of_mem_removeField hmem
    · exact hmem

theorem dropNulls_eq_self
    (hnull : ∀ name ∈ names, (obj fields).get name ≠ some .null) :
    dropNulls names fields = fields := by
  induction names with
  | nil => rfl
  | cons name names ih =>
    rw [dropNulls_cons, if_neg (hnull name mem_cons_self)]
    exact ih fun other hother =>
      hnull other (mem_cons_of_mem name hother)

theorem length_dropNulls_le (names : List String)
    (fields : List (String × Json)) :
    (dropNulls names fields).length ≤ fields.length := by
  induction names generalizing fields with
  | nil => exact Nat.le_refl _
  | cons name names ih =>
    rw [dropNulls_cons]
    split
    · rename_i hnull
      exact le_trans (ih _) (Nat.le_of_lt (length_removeField_lt hnull))
    · exact ih fields

theorem length_dropNulls_lt (hname : name ∈ names)
    (hnull : (obj fields).get name = some .null) :
    (dropNulls names fields).length < fields.length := by
  induction names with
  | nil => exact absurd hname not_mem_nil
  | cons first names ih =>
    rw [dropNulls_cons]
    split
    · rename_i hfirst
      exact lt_of_le_of_lt (length_dropNulls_le names _)
        (length_removeField_lt hfirst)
    · rename_i hfirst
      rcases mem_cons.mp hname with rfl | hlater
      · exact absurd hnull hfirst
      · exact ih hlater

theorem dropNulls_perm (names : List String)
    (hnodup : (fields.map Prod.fst).Nodup) :
    (dropNulls names fields).Perm
      (fields.filter fun field => ¬ (field.1 ∈ names ∧ field.2 = .null)) := by
  induction names generalizing fields with
  | nil =>
    have hall : fields.filter (fun field =>
        ¬ (field.1 ∈ ([] : List String) ∧ field.2 = .null)) = fields := by
      rw [filter_eq_self]
      intro field _
      simp
    rw [hall]
    exact List.Perm.refl fields
  | cons name names ih =>
    rw [dropNulls_cons]
    split
    · rename_i hnull
      refine (ih (nodup_removeField hnodup name)).trans ?_
      refine ((removeField_perm hnodup name).filter _).trans ?_
      rw [filter_filter]
      refine List.Perm.of_eq (filter_congr ?_)
      intro field hfield
      have hvalue : field.1 = name → field.2 = .null := by
        intro hname
        have hhere := (get_eq_some_iff_mem hnodup).mpr hfield
        rw [hname, hnull] at hhere
        exact (Option.some.inj hhere).symm
      by_cases hname : field.1 = name
      · simp [hname, hvalue hname]
      · simp [hname]
    · rename_i hnull
      refine (ih hnodup).trans (List.Perm.of_eq (filter_congr ?_))
      intro field hfield
      have hvalue : field.1 = name → field.2 ≠ .null := by
        rintro hname hfieldNull
        refine hnull ((get_eq_some_iff_mem hnodup).mpr ?_)
        rw [← hname, ← hfieldNull]
        exact hfield
      by_cases hname : field.1 = name
      · simp [hvalue hname]
      · simp [hname]

theorem mem_dropNulls (hnodup : (fields.map Prod.fst).Nodup) :
    field ∈ dropNulls names fields ↔
      field ∈ fields ∧ ¬ (field.1 ∈ names ∧ field.2 = .null) := by
  rw [(dropNulls_perm names hnodup).mem_iff, mem_filter,
    decide_eq_true_eq]

theorem nodup_dropNulls (names : List String)
    (hnodup : (fields.map Prod.fst).Nodup) :
    ((dropNulls names fields).map Prod.fst).Nodup := by
  rw [((dropNulls_perm names hnodup).map Prod.fst).nodup_iff]
  exact hnodup.sublist (filter_sublist.map _)

theorem get_dropNulls_eq_some (hnodup : (fields.map Prod.fst).Nodup) :
    (obj (dropNulls names fields)).get name = some value ↔
      (obj fields).get name = some value ∧
        ¬ (name ∈ names ∧ value = .null) := by
  rw [get_eq_some_iff_mem (nodup_dropNulls names hnodup),
    get_eq_some_iff_mem hnodup, mem_dropNulls hnodup]

/-- Every value of an object changed, under its name. -/
def mapValues (change : Json → Json) (fields : List (String × Json)) :
    List (String × Json) :=
  fields.map fun field => (field.1, change field.2)

theorem map_fst_mapValues (change : Json → Json)
    (fields : List (String × Json)) :
    (mapValues change fields).map Prod.fst = fields.map Prod.fst := by
  rw [mapValues, map_map]
  exact map_congr_left fun field _ => rfl

theorem get_mapValues (change : Json → Json) (fields : List (String × Json))
    (name : String) :
    (obj (mapValues change fields)).get name =
      ((obj fields).get name).map change := by
  induction fields with
  | nil => rfl
  | cons field rest ih =>
    change (obj ((field.1, change field.2) :: mapValues change rest)).get
      name = _
    rw [get_cons, get_cons, ih]
    split <;> rfl

theorem mapValues_mapValues (first second : Json → Json)
    (fields : List (String × Json)) :
    mapValues second (mapValues first fields) =
      mapValues (fun value => second (first value)) fields := by
  rw [mapValues, mapValues, mapValues, map_map]
  exact map_congr_left fun field _ => rfl

theorem mapValues_eq_iff {first second : Json → Json} :
    mapValues first fields = mapValues second fields ↔
      ∀ field ∈ fields, first field.2 = second field.2 := by
  rw [mapValues, mapValues, map_inj_left]
  simp only [Prod.mk.injEq, true_and]

theorem get_filter_name (keep : String → Bool) (hname : keep name = true)
    (fields : List (String × Json)) :
    (obj (fields.filter fun field => keep field.1)).get name =
      (obj fields).get name := by
  induction fields with
  | nil => rfl
  | cons field rest ih =>
    rw [get_cons, filter_cons]
    by_cases hkeep : keep field.1 = true
    · rw [if_pos hkeep, get_cons, ih]
    · rw [if_neg hkeep, ih]
      have hother : field.1 ≠ name := by
        rintro rfl
        exact hkeep hname
      rw [if_neg hother]

end Json

/-- A partial map leaves a list alone exactly if it leaves every entry
alone. -/
theorem filterMap_eq_self_iff {step : α → Option α} {entries : List α} :
    entries.filterMap step = entries ↔
      ∀ entry ∈ entries, step entry = some entry := by
  induction entries with
  | nil => simp
  | cons entry rest ih =>
    rw [forall_mem_cons, filterMap_cons]
    cases hstep : step entry with
    | none =>
      constructor
      · intro heq
        have hlength := length_filterMap_le step rest
        have hsame := congrArg List.length heq
        simp only [length_cons] at hsame
        omega
      · intro h
        cases h.1
    | some value =>
      rw [List.cons.injEq, Option.some.injEq, ih]

end Vellum
