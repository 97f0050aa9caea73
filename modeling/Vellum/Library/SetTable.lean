/-
A table of sets: under each key a set of values.  The model of a hash map of
hash sets.  A key may stand with an empty set, which no lookup of members
tells from one that is absent.
-/
import Vellum.Library.KeyedTable

namespace Vellum

open KeyedTable

universe u v

/-- Values without repetition. -/
abbrev ValueSet (α : Type v) := KeyedTable (id : α → α)

abbrev SetTable (κ : Type u) (α : Type v) :=
  KeyedTable (Prod.fst : κ × ValueSet α → κ)

namespace SetTable

variable {κ : Type u} {α : Type v} [DecidableEq κ] [DecidableEq α]

variable (table : SetTable κ α) (key : κ)

/-- The set under a key, empty if there is none. -/
def valuesAt : ValueSet α :=
  ((table.find? key).map Prod.snd).getD KeyedTable.empty

/-- The values under a key, in the order in which the set iterates. -/
def members : List α :=
  (table.valuesAt key).rows

/-- `entry(key).or_default().insert(value)`. -/
def insert (value : α) : SetTable κ α :=
  table.put (key, (table.valuesAt key).put value)

/-- `get_mut(key)`, and `remove(value)` from the set that is there. -/
def removeValue (value : α) : SetTable κ α :=
  match table.find? key with
  | some row => table.put (key, row.2.erase value)
  | none => table

/-- Like `removeValue`; a set that is then empty goes with its key. -/
def discardValue (value : α) : SetTable κ α :=
  match table.find? key with
  | some row =>
    if (row.2.erase value).rows.isEmpty then table.erase key
    else table.put (key, row.2.erase value)
  | none => table

variable (table : SetTable κ α) {other : κ} {value found : α}

omit [DecidableEq α] in
theorem nodup_members (key : κ) : (table.members key).Nodup := by
  have hnodup := (table.valuesAt key).keys_nodup
  rwa [List.map_id] at hnodup

omit [DecidableEq α] in
theorem valuesAt_put (row : κ × ValueSet α) (key : κ) :
    valuesAt (table.put row) key =
      if key = row.1 then row.2 else table.valuesAt key := by
  rw [valuesAt, find?_put]
  split
  · rfl
  · rfl

omit [DecidableEq α] in
theorem valuesAt_erase (erased key : κ) :
    valuesAt (table.erase erased) key =
      if key = erased then KeyedTable.empty else table.valuesAt key := by
  rw [valuesAt, find?_erase]
  split
  · rfl
  · rfl

omit [DecidableEq α] in
theorem valuesAt_of_find? {table : SetTable κ α} {key : κ}
    {row : κ × ValueSet α} (hfind : table.find? key = some row) :
    table.valuesAt key = row.2 := by
  rw [valuesAt, hfind]
  rfl

theorem mem_members_insert {table : SetTable κ α} {key : κ} :
    found ∈ (table.insert key value).members other ↔
      (other = key ∧ found = value) ∨ found ∈ table.members other := by
  rw [members, insert, valuesAt_put]
  by_cases hkey : other = key
  · subst hkey
    rw [if_pos rfl, mem_put_iff, members]
    by_cases hvalue : found = value
    · simp [hvalue]
    · simp [hvalue]
  · rw [if_neg hkey]
    simp [hkey, members]

theorem mem_members_removeValue {table : SetTable κ α} {key : κ} :
    found ∈ (table.removeValue key value).members other ↔
      found ∈ table.members other ∧ ¬ (other = key ∧ found = value) := by
  rw [removeValue]
  cases hfind : table.find? key with
  | none =>
    have hempty : table.valuesAt key = KeyedTable.empty := by
      rw [valuesAt, hfind]
      rfl
    constructor
    · intro hmem
      refine ⟨hmem, ?_⟩
      rintro ⟨rfl, _⟩
      rw [members, hempty] at hmem
      cases hmem
    · exact And.left
  | some row =>
    simp only [members, valuesAt_put]
    by_cases hkey : other = key
    · subst hkey
      rw [if_pos rfl, mem_erase_iff, valuesAt_of_find? hfind]
      simp
    · rw [if_neg hkey]
      simp [hkey]

theorem mem_members_discardValue {table : SetTable κ α} {key : κ} :
    found ∈ (table.discardValue key value).members other ↔
      found ∈ table.members other ∧ ¬ (other = key ∧ found = value) := by
  rw [← mem_members_removeValue, discardValue, removeValue]
  cases hfind : table.find? key with
  | none => rfl
  | some row =>
    simp only
    split
    · rename_i hempty
      simp only [members, valuesAt_put, valuesAt_erase]
      split
      · rw [List.isEmpty_iff.mp hempty]
        rfl
      · rfl
    · rfl

omit [DecidableEq α] in
theorem members_erase (erased key : κ) :
    members (table.erase erased) key =
      if key = erased then [] else table.members key := by
  rw [members, valuesAt_erase]
  split
  · rfl
  · rfl

/-- The same sets under the same keys, in another order. -/
def Reordered (left right : SetTable κ α) : Prop :=
  ∀ key, (left.members key).Perm (right.members key)

end SetTable

end Vellum
