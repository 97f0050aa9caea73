/-
A finite table whose rows have pairwise distinct keys: the model of an SQL
table with a primary key and of an in-memory hash map.  The distinctness is a
field of the table, so that no operation can build a table with two rows under
one key.
-/
import Mathlib

namespace Vellum

open List

universe u v

/-- Rows with pairwise distinct keys. -/
structure KeyedTable {κ : Type u} {ρ : Type v} (key : ρ → κ) where
  rows : List ρ
  keys_nodup : (rows.map key).Nodup

namespace KeyedTable

variable {κ : Type u} {ρ : Type v} {key : ρ → κ}

def empty : KeyedTable key := ⟨[], List.nodup_nil⟩

theorem eq_of_rows {left right : KeyedTable key}
    (hrows : left.rows = right.rows) : left = right := by
  cases left
  cases right
  cases hrows
  rfl

variable [DecidableEq κ]

/-- The row under a key. -/
def find? (table : KeyedTable key) (k : κ) : Option ρ :=
  table.rows.find? fun row => decide (key row = k)

variable (table : KeyedTable key) (p : ρ → Bool) (row : ρ) (k : κ)

theorem find?_eq_some_iff (row : ρ) :
    table.find? k = some row ↔ row ∈ table.rows ∧ key row = k := by
  constructor
  · intro hfind
    refine ⟨mem_of_find?_eq_some hfind, ?_⟩
    simpa using find?_some hfind
  · rintro ⟨hmem, rfl⟩
    have hinj := inj_on_of_nodup_map table.keys_nodup
    cases hfind : table.find? (key row) with
    | none =>
      have hnone := find?_eq_none.mp hfind row hmem
      simp at hnone
    | some found =>
      have hfound : found ∈ table.rows := mem_of_find?_eq_some hfind
      have hkey : key found = key row := by simpa using find?_some hfind
      rw [hinj hfound hmem hkey]

omit [DecidableEq κ] in
/-- Rows under one key are one row. -/
theorem eq_of_mem {row other : ρ} (hrow : row ∈ table.rows)
    (hother : other ∈ table.rows) (hkey : key row = key other) : row = other :=
  inj_on_of_nodup_map table.keys_nodup hrow hother hkey

theorem find?_eq_none_iff :
    table.find? k = none ↔ ∀ row ∈ table.rows, key row ≠ k := by
  simp [find?, find?_eq_none]

theorem key_of_find? {table : KeyedTable key} {k : κ} {row : ρ}
    (hfind : table.find? k = some row) : key row = k :=
  ((table.find?_eq_some_iff k row).mp hfind).2

@[simp]
theorem find?_empty : (empty : KeyedTable key).find? k = none := rfl

private theorem map_key_replace (rows : List ρ) (row : ρ) :
    (rows.map fun old => if key old = key row then row else old).map key =
      rows.map key := by
  rw [map_map]
  apply map_congr_left
  intro old _
  by_cases hkey : key old = key row <;> simp [hkey]

/-- Write a row under its own key, in place of the row already there. -/
def put (table : KeyedTable key) (row : ρ) : KeyedTable key :=
  if hpresent : key row ∈ table.rows.map key then
    ⟨table.rows.map fun old => if key old = key row then row else old, by
      rw [map_key_replace]
      exact table.keys_nodup⟩
  else
    ⟨table.rows ++ [row], by
      rw [List.map_append, List.map_singleton]
      refine List.nodup_append.mpr
        ⟨table.keys_nodup, List.nodup_singleton _, ?_⟩
      rintro old hold new hnew rfl
      exact hpresent (List.mem_singleton.mp hnew ▸ hold)⟩

theorem mem_put_iff (other : ρ) :
    other ∈ (table.put row).rows ↔
      other = row ∨ other ∈ table.rows ∧ key other ≠ key row := by
  unfold put
  split
  · rename_i hpresent
    obtain ⟨old, hold, hkey⟩ := mem_map.mp hpresent
    simp only [mem_map]
    constructor
    · rintro ⟨source, hsource, rfl⟩
      by_cases hsame : key source = key row
      · simp [hsame]
      · simp [hsame, hsource]
    · rintro (rfl | ⟨hmem, hne⟩)
      · exact ⟨old, hold, by simp [hkey]⟩
      · exact ⟨other, hmem, by simp [hne]⟩
  · rename_i habsent
    simp only [mem_append, mem_singleton]
    constructor
    · rintro (hmem | rfl)
      · refine Or.inr ⟨hmem, fun hkey => habsent ?_⟩
        exact mem_map.mpr ⟨other, hmem, hkey⟩
      · exact Or.inl rfl
    · rintro (rfl | ⟨hmem, -⟩)
      · exact Or.inr rfl
      · exact Or.inl hmem

@[simp]
theorem find?_put_self : (table.put row).find? (key row) = some row := by
  rw [find?_eq_some_iff, mem_put_iff]
  exact ⟨Or.inl rfl, rfl⟩

theorem find?_put_of_ne {k : κ} (hne : k ≠ key row) :
    (table.put row).find? k = table.find? k := by
  apply Option.ext
  intro found
  rw [find?_eq_some_iff, find?_eq_some_iff, mem_put_iff]
  constructor
  · rintro ⟨rfl | ⟨hmem, -⟩, hkey⟩
    · exact absurd hkey.symm hne
    · exact ⟨hmem, hkey⟩
  · rintro ⟨hmem, rfl⟩
    exact ⟨Or.inr ⟨hmem, hne⟩, rfl⟩

theorem find?_put :
    (table.put row).find? k =
      if k = key row then some row else table.find? k := by
  by_cases hk : k = key row
  · subst hk
    simp
  · rw [if_neg hk, find?_put_of_ne table row hk]

/-- `INSERT ... ON CONFLICT(key) DO UPDATE`: a fresh row is inserted, an
existing one is replaced by what `merge` makes of it. -/
def upsert (table : KeyedTable key) (row : ρ) (merge : ρ → ρ) :
    KeyedTable key :=
  table.put ((table.find? (key row)).elim row merge)

theorem find?_upsert (merge : ρ → ρ) (hmerge : ∀ old, key (merge old) = key old)
    (k : κ) :
    (table.upsert row merge).find? k =
      if k = key row then some ((table.find? k).elim row merge)
      else table.find? k := by
  have hkey : key ((table.find? (key row)).elim row merge) = key row := by
    cases hfind : table.find? (key row) with
    | none => rfl
    | some old => exact (hmerge old).trans (key_of_find? hfind)
  rw [upsert, find?_put, hkey]
  by_cases hk : k = key row
  · subst hk
    rfl
  · simp [hk]

/-- `UPDATE ... WHERE`: rewrite every row that meets the predicate.  The
rewrite keeps the key. -/
def modify (table : KeyedTable key) (p : ρ → Bool) (f : ρ → ρ)
    (hf : ∀ row, key (f row) = key row) : KeyedTable key :=
  ⟨table.rows.map fun row => if p row then f row else row, by
    have hkeys : (table.rows.map fun row =>
        if p row then f row else row).map key = table.rows.map key := by
      rw [List.map_map]
      apply List.map_congr_left
      intro row _
      by_cases hp : p row <;> simp [hp, hf]
    rw [hkeys]
    exact table.keys_nodup⟩

omit [DecidableEq κ] in
theorem mem_modify_iff (f : ρ → ρ) (hf : ∀ row, key (f row) = key row)
    (other : ρ) :
    other ∈ (table.modify p f hf).rows ↔
      ∃ row ∈ table.rows, (if p row then f row else row) = other := by
  simp [modify]

theorem find?_modify (f : ρ → ρ) (hf : ∀ row, key (f row) = key row) (k : κ) :
    (table.modify p f hf).find? k =
      (table.find? k).map fun row => if p row then f row else row := by
  have hkey : ∀ row, key (if p row then f row else row) = key row := by
    intro row
    by_cases hp : p row <;> simp [hp, hf]
  unfold find? modify
  rw [find?_map]
  congr 2
  funext row
  simp [hkey]

/-- `DELETE ... WHERE key`. -/
def erase (table : KeyedTable key) (k : κ) : KeyedTable key :=
  ⟨table.rows.filter fun row => decide (key row ≠ k),
    (List.filter_sublist.map key).nodup table.keys_nodup⟩

theorem mem_erase_iff (row : ρ) :
    row ∈ (table.erase k).rows ↔ row ∈ table.rows ∧ key row ≠ k := by
  simp [erase]

theorem find?_erase (erased k : κ) :
    (table.erase erased).find? k =
      if k = erased then none else table.find? k := by
  split
  · rename_i hk
    rw [find?_eq_none_iff]
    intro row hrow
    rw [hk]
    exact ((table.mem_erase_iff erased row).mp hrow).2
  · rename_i hk
    apply Option.ext
    intro row
    rw [find?_eq_some_iff, find?_eq_some_iff, mem_erase_iff]
    constructor
    · rintro ⟨⟨hmem, _⟩, hkey⟩
      exact ⟨hmem, hkey⟩
    · rintro ⟨hmem, rfl⟩
      exact ⟨⟨hmem, hk⟩, rfl⟩

theorem length_erase {table : KeyedTable key} {k : κ} {row : ρ}
    (hfind : table.find? k = some row) :
    (table.erase k).rows.length + 1 = table.rows.length := by
  obtain ⟨hmem, rfl⟩ := (table.find?_eq_some_iff k row).mp hfind
  have hkeys : (table.erase (key row)).rows.map key =
      (table.rows.map key).erase (key row) := by
    rw [List.Nodup.erase_eq_filter table.keys_nodup, filter_map, erase]
    congr 1
    apply filter_congr
    intro other _
    simp [bne, Bool.beq_eq_decide_eq]
  have hlength := congrArg List.length hkeys
  have hpos := length_pos_of_mem hmem
  rw [length_map, length_erase_of_mem (mem_map_of_mem hmem),
    length_map] at hlength
  omega

/-- `DELETE ... WHERE NOT p`. -/
def retain (table : KeyedTable key) (p : ρ → Bool) : KeyedTable key :=
  ⟨table.rows.filter p, (List.filter_sublist.map key).nodup table.keys_nodup⟩

theorem find?_retain : (table.retain p).find? k = (table.find? k).filter p := by
  apply Option.ext
  intro row
  have hmem : row ∈ (table.retain p).rows ↔ row ∈ table.rows ∧ p row = true :=
    mem_filter
  rw [find?_eq_some_iff, hmem, Option.filter_eq_some_iff, find?_eq_some_iff]
  tauto

/-- Writing a row that is there changes nothing. -/
theorem put_of_find? {table : KeyedTable key} {row : ρ}
    (hfind : table.find? (key row) = some row) : table.put row = table := by
  have hmem := ((table.find?_eq_some_iff (key row) row).mp hfind).1
  apply eq_of_rows
  rw [put, dif_pos (mem_map_of_mem hmem)]
  conv_rhs => rw [← map_id table.rows]
  apply map_congr_left
  intro old hold
  split
  · rename_i hkey
    exact table.eq_of_mem hmem hold hkey.symm
  · rfl

/-- A row under a new key goes behind the others. -/
theorem rows_put_of_fresh {table : KeyedTable key} {row : ρ}
    (hfresh : key row ∉ table.rows.map key) :
    (table.put row).rows = table.rows ++ [row] := by
  rw [put, dif_neg hfresh]

theorem rows_put_of_last {table : KeyedTable key} {front : List ρ}
    {old row : ρ} (hrows : table.rows = front ++ [old])
    (hkey : key old = key row) : (table.put row).rows = front ++ [row] := by
  have hpresent : key row ∈ table.rows.map key := by
    rw [hrows, ← hkey]
    exact mem_map_of_mem (mem_append_right _ mem_cons_self)
  have hfront : ∀ other ∈ front, key other ≠ key row := by
    have hnodup := table.keys_nodup
    rw [hrows, map_append, nodup_append] at hnodup
    intro other hother
    rw [← hkey]
    exact hnodup.2.2 _ (mem_map_of_mem hother) _
      (mem_map_of_mem mem_cons_self)
  have hkept : front.map (fun other => if key other = key row then row
      else other) = front := by
    conv_rhs => rw [← map_id front]
    apply map_congr_left
    intro other hother
    exact if_neg (hfront other hother)
  rw [put, dif_pos hpresent]
  simp only [hrows, map_append, map_cons, map_nil, hkey,
    if_true]
  rw [hkept]

/-- Writing rows under keys that differ lists them in their order. -/
theorem rows_foldl_put {table : KeyedTable key} {rows : List ρ}
    (hnodup : ((table.rows ++ rows).map key).Nodup) :
    (rows.foldl put table).rows = table.rows ++ rows := by
  induction rows generalizing table with
  | nil => rw [foldl_nil, append_nil]
  | cons row rows ih =>
    have hfresh : key row ∉ table.rows.map key := by
      rw [map_append, nodup_append] at hnodup
      intro hmem
      exact hnodup.2.2 _ hmem _ (mem_map_of_mem mem_cons_self) rfl
    have hrows : table.rows ++ row :: rows =
        (table.put row).rows ++ rows := by
      rw [rows_put_of_fresh hfresh, append_assoc, singleton_append]
    rw [hrows] at hnodup ⊢
    exact ih hnodup

/-- How many rows a walk over the keys has not come by. -/
def remaining (table : KeyedTable key) (seen : List κ) : Nat :=
  (table.rows.filter fun row => key row ∉ seen).length

theorem remaining_lt {table : KeyedTable key} {seen : List κ} {k : κ} {row : ρ}
    (hfresh : k ∉ seen) (hfind : table.find? k = some row) :
    table.remaining (k :: seen) < table.remaining seen := by
  obtain ⟨hmem, hkey⟩ := (table.find?_eq_some_iff k row).mp hfind
  have hkept : (table.rows.filter fun row => key row ∉ k :: seen) =
      (table.rows.filter fun row => key row ∉ seen).filter
        fun row => key row ≠ k := by
    rw [filter_filter]
    apply filter_congr
    intro row _
    simp [mem_cons]
  rw [remaining, hkept]
  apply length_filter_lt_length_iff_exists.mpr
  refine ⟨row, mem_filter.mpr ⟨hmem, ?_⟩, ?_⟩
  · rw [hkey]
    exact decide_eq_true hfresh
  · simp [hkey]

/-- The same rows in another order. -/
def Reordered (left right : KeyedTable key) : Prop :=
  left.rows.Perm right.rows

/-- A lookup does not see the order of the rows. -/
theorem Reordered.find?_eq {left right : KeyedTable key}
    (horder : left.Reordered right) (k : κ) : left.find? k = right.find? k := by
  apply Option.ext
  intro row
  rw [find?_eq_some_iff, find?_eq_some_iff, List.Perm.mem_iff horder]

end KeyedTable

end Vellum
