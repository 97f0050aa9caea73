/-
A hash map as a table of pairs: lookups through the operations, and what
inserting, removing and retaining do to the number of entries.  A hash set is a
map to `Unit`.
-/
import Vellum.Library.KeyedTable

namespace Vellum

open List KeyedTable

universe u v

abbrev HashMap (κ : Type u) (υ : Type v) :=
  KeyedTable (Prod.fst : κ × υ → κ)

abbrev HashSet (κ : Type u) := HashMap κ Unit

namespace HashMap

variable {κ : Type u} {υ : Type v} [DecidableEq κ]

omit [DecidableEq κ] in
def empty : HashMap κ υ := KeyedTable.empty

def get (map : HashMap κ υ) (k : κ) : Option υ :=
  (map.find? k).map Prod.snd

def contains (map : HashMap κ υ) (k : κ) : Bool := (map.get k).isSome

def insert (map : HashMap κ υ) (k : κ) (value : υ) : HashMap κ υ :=
  KeyedTable.put map (k, value)

def remove (map : HashMap κ υ) (k : κ) : HashMap κ υ :=
  KeyedTable.erase map k

/-- Keep the entries whose key and value meet a condition. -/
def retain (map : HashMap κ υ) (p : κ → υ → Bool) : HashMap κ υ :=
  KeyedTable.retain map fun entry => p entry.1 entry.2

omit [DecidableEq κ] in
def len (map : HashMap κ υ) : Nat := map.rows.length

theorem get_eq_some_iff {map : HashMap κ υ} {k : κ} {value : υ} :
    map.get k = some value ↔ (k, value) ∈ map.rows := by
  rw [get, Option.map_eq_some_iff]
  constructor
  · rintro ⟨⟨found, _⟩, hfind, rfl⟩
    obtain ⟨hmem, rfl⟩ := (map.find?_eq_some_iff k _).mp hfind
    exact hmem
  · intro hmem
    exact ⟨(k, value), (map.find?_eq_some_iff k _).mpr ⟨hmem, rfl⟩, rfl⟩

variable (map : HashMap κ υ) (k : κ) (p : κ → υ → Bool) (value : υ)

@[simp]
theorem get_empty : (empty : HashMap κ υ).get k = none := rfl

theorem get_insert (other : κ) (value : υ) :
    (map.insert k value).get other =
      if other = k then some value else map.get other := by
  rw [get, insert, find?_put]
  split <;> rfl

@[simp]
theorem get_insert_self : (map.insert k value).get k = some value := by
  rw [get_insert, if_pos rfl]

theorem get_remove (other : κ) :
    (map.remove k).get other = if other = k then none else map.get other := by
  rw [get, remove, find?_erase]
  split <;> rfl

@[simp]
theorem get_remove_self : (map.remove k).get k = none := by
  rw [get_remove, if_pos rfl]

theorem get_of_remove {map : HashMap κ υ} {k other : κ} {value : υ}
    (hget : (map.remove k).get other = some value) :
    map.get other = some value := by
  rw [get_remove] at hget
  split at hget
  · cases hget
  · exact hget

theorem get_retain (k : κ) :
    (map.retain p).get k = (map.get k).filter (p k) := by
  apply Option.ext
  intro value
  rw [get_eq_some_iff, Option.filter_eq_some_iff, get_eq_some_iff]
  exact mem_filter

omit [DecidableEq κ] in
theorem retain_true {map : HashMap κ υ} {p : κ → υ → Bool}
    (hall : ∀ k value, p k value = true) : map.retain p = map := by
  apply eq_of_rows
  exact filter_eq_self.mpr fun entry _ => hall entry.1 entry.2

omit [DecidableEq κ] in
theorem retain_retain (map : HashMap κ υ) (p q : κ → υ → Bool) :
    (map.retain p).retain q = map.retain fun k value => q k value && p k value := by
  apply eq_of_rows
  exact filter_filter

theorem remove_insert {map : HashMap κ υ} {k : κ} (hfresh : map.get k = none)
    (value : υ) : (map.insert k value).remove k = map := by
  have habsent : k ∉ map.rows.map Prod.fst := by
    rw [get, Option.map_eq_none_iff, find?_eq_none_iff] at hfresh
    intro hmem
    obtain ⟨row, hrow, hkey⟩ := mem_map.mp hmem
    exact hfresh row hrow hkey
  have hrows : (map.insert k value).rows = map.rows ++ [(k, value)] :=
    rows_put_of_fresh habsent
  apply eq_of_rows
  rw [remove, KeyedTable.erase]
  simp only [hrows, filter_append, filter_singleton, ne_eq,
    not_true_eq_false, decide_false, cond_false, append_nil]
  apply filter_eq_self.mpr
  intro row hrow
  rw [decide_eq_true_iff]
  rintro rfl
  exact habsent (mem_map_of_mem hrow)

/-- An insertion that changes nothing found its value there. -/
theorem insert_eq_self_iff {map : HashMap κ υ} {k : κ} {value : υ} :
    map.insert k value = map ↔ map.get k = some value := by
  constructor
  · intro heq
    rw [← heq, get_insert_self]
  · intro hget
    obtain ⟨row, hfind, rfl⟩ := Option.map_eq_some_iff.mp hget
    have hkey : row.1 = k := key_of_find? hfind
    subst hkey
    exact put_of_find? hfind

omit [DecidableEq κ] in
theorem len_eq_zero_iff {map : HashMap κ υ} : map.len = 0 ↔ map.rows = [] :=
  length_eq_zero_iff

/-- A map without entries has no value. -/
theorem get_of_len_eq_zero {map : HashMap κ υ} (hlen : map.len = 0) (k : κ) :
    map.get k = none := by
  rw [len_eq_zero_iff] at hlen
  cases hget : map.get k with
  | none => rfl
  | some value =>
    rw [get_eq_some_iff, hlen] at hget
    cases hget

theorem len_insert_le : (map.insert k value).len ≤ map.len + 1 := by
  rw [len, insert, KeyedTable.put]
  split
  · simp [len]
  · simp [len]

theorem len_remove_le : (map.remove k).len ≤ map.len :=
  length_filter_le _ _

omit [DecidableEq κ] in
theorem len_retain_le : (map.retain p).len ≤ map.len :=
  length_filter_le _ _

/-! Counting the entries that meet a condition. -/

omit [DecidableEq κ] in
def count (map : HashMap κ υ) (p : κ → υ → Bool) : Nat :=
  map.rows.countP fun entry => p entry.1 entry.2

omit [DecidableEq κ] in
@[simp]
theorem count_empty : (empty : HashMap κ υ).count p = 0 := rfl

omit [DecidableEq κ] in
theorem count_mono {map : HashMap κ υ} {p q : κ → υ → Bool}
    (himp : ∀ k value, p k value = true → q k value = true) :
    map.count p ≤ map.count q :=
  countP_mono_left fun entry _ => himp entry.1 entry.2

omit [DecidableEq κ] in
theorem count_retain_le (keep p : κ → υ → Bool) :
    (map.retain keep).count p ≤ map.count p :=
  List.Sublist.countP_le filter_sublist

omit [DecidableEq κ] in
/-- Nothing is counted where every entry that would be was dropped. -/
theorem count_retain_eq_zero {map : HashMap κ υ} {keep p : κ → υ → Bool}
    (hdropped : ∀ k value, p k value = true → keep k value = false) :
    (map.retain keep).count p = 0 := by
  rw [count, countP_eq_zero]
  intro entry hentry hcounted
  have hkept := (mem_filter.mp hentry).2
  rw [hdropped entry.1 entry.2 hcounted] at hkept
  cases hkept

theorem count_remove_le : (map.remove k).count p ≤ map.count p :=
  List.Sublist.countP_le filter_sublist

theorem count_remove_of_get {map : HashMap κ υ} {k : κ} {value : υ}
    (hget : map.get k = some value) (p : κ → υ → Bool) :
    (map.remove k).count p + (if p k value then 1 else 0) = map.count p := by
  have hmem : (k, value) ∈ map.rows := get_eq_some_iff.mp hget
  obtain ⟨front, back, hrows⟩ := append_of_mem hmem
  have hnodup := map.keys_nodup
  rw [hrows, map_append, map_cons, nodup_middle,
    nodup_cons, ← map_append] at hnodup
  have hothers : (front ++ back).filter (fun entry => decide (entry.1 ≠ k)) =
      front ++ back := by
    rw [filter_eq_self]
    intro entry hentry
    rw [decide_eq_true_iff]
    intro hkey
    have hlisted := mem_map_of_mem (f := Prod.fst) hentry
    rw [hkey] at hlisted
    exact hnodup.1 hlisted
  have hkept : (map.remove k).rows = front ++ back := by
    change map.rows.filter (fun entry => decide (entry.1 ≠ k)) = _
    rw [hrows, ← hothers]
    simp only [filter_append, filter_cons, ne_eq, not_true_eq_false,
      decide_false, Bool.false_eq_true, ↓reduceIte]
  rw [count, count, hkept, hrows, countP_append, countP_append,
    countP_cons, Nat.add_assoc]

private theorem filter_replace (rows : List (κ × υ)) (k : κ) (value : υ) :
    (rows.map fun old => if old.1 = k then (k, value) else old).filter
        (fun entry => decide (entry.1 ≠ k)) =
      rows.filter fun entry => decide (entry.1 ≠ k) := by
  induction rows with
  | nil => rfl
  | cons row rows ih =>
    by_cases hkey : row.1 = k
    · simpa [hkey] using ih
    · simpa [hkey] using ih

theorem remove_insert_self : (map.insert k value).remove k = map.remove k := by
  apply eq_of_rows
  change (map.insert k value).rows.filter _ = map.rows.filter _
  rw [insert, KeyedTable.put]
  split
  · exact filter_replace map.rows k value
  · simp

/-- An insertion counts its own entry, and the others as before. -/
theorem count_insert_le (p : κ → υ → Bool) :
    (map.insert k value).count p ≤
      (map.remove k).count p + (if p k value then 1 else 0) := by
  rw [← remove_insert_self map k value]
  exact Nat.le_of_eq (count_remove_of_get (get_insert_self map k value) p).symm

end HashMap

end Vellum
