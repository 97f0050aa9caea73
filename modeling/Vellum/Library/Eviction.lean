/-
A table that is kept within a limit: before a row is put into a full table, one
that was touched longest ago is taken out.  Which one of several is left open,
as the order of a hash map is.
-/
import Vellum.Library.KeyedTable

namespace Vellum

open List

namespace KeyedTable

universe u v

variable {κ : Type u} {ρ : Type v} {key : ρ → κ} [DecidableEq κ]

def isOldest (touched : ρ → Nat) (rows : List ρ) (row : ρ) : Bool :=
  rows.all fun other => touched row ≤ touched other

variable {limit : Nat} (touched : ρ → Nat) {table : KeyedTable key}

omit [DecidableEq κ] in
theorem exists_isOldest {rows : List ρ} (hne : rows ≠ []) :
    ∃ row ∈ rows, isOldest touched rows row = true := by
  simp only [isOldest, all_eq_true, decide_eq_true_eq]
  induction rows with
  | nil => exact absurd rfl hne
  | cons head rest ih =>
    by_cases hrest : rest = []
    · subst hrest
      exact ⟨head, mem_cons_self, by simp⟩
    · obtain ⟨row, hrow, holdest⟩ := ih hrest
      by_cases hhead : touched head ≤ touched row
      · refine ⟨head, mem_cons_self,
          forall_mem_cons.mpr ⟨Nat.le_refl _, fun other hmem => ?_⟩⟩
        exact Nat.le_trans hhead (holdest other hmem)
      · exact ⟨row, mem_cons_of_mem _ hrow,
          forall_mem_cons.mpr ⟨Nat.le_of_not_le hhead, holdest⟩⟩

/-- A row touched longest ago: the picked one if it is such a row. -/
def oldest (touched : ρ → Nat) (pick : κ) (table : KeyedTable key) : Option ρ :=
  (table.rows.find? fun row =>
      decide (key row = pick) && isOldest touched table.rows row).or
    (table.rows.find? (isOldest touched table.rows))

theorem exists_oldest (pick : κ) (hne : table.rows ≠ []) :
    ∃ row ∈ table.rows, table.oldest touched pick = some row := by
  unfold oldest
  cases hpick : table.rows.find? fun row =>
      decide (key row = pick) && isOldest touched table.rows row with
  | some row => exact ⟨row, mem_of_find?_eq_some hpick, rfl⟩
  | none =>
    rw [Option.none_or]
    cases hfind : table.rows.find? (isOldest touched table.rows) with
    | some row => exact ⟨row, mem_of_find?_eq_some hfind, rfl⟩
    | none =>
      obtain ⟨row, hrow, holdest⟩ := exists_isOldest touched hne
      exact absurd holdest (find?_eq_none.mp hfind row hrow)

/-- Take the oldest row out of a table that has reached the limit. -/
def makeRoom (limit : Nat) (touched : ρ → Nat) (pick : κ)
    (table : KeyedTable key) : KeyedTable key :=
  if limit ≤ table.rows.length then
    match table.oldest touched pick with
    | some old => table.erase (key old)
    | none => table
  else table

theorem length_put_of_find? {row old : ρ}
    (hfind : table.find? (key row) = some old) :
    (table.put row).rows.length = table.rows.length := by
  obtain ⟨hmem, hkey⟩ := (table.find?_eq_some_iff (key row) old).mp hfind
  rw [put, dif_pos (hkey ▸ mem_map_of_mem hmem), length_map]

theorem length_erase_le (table : KeyedTable key) (k : κ) :
    (table.erase k).rows.length ≤ table.rows.length :=
  length_filter_le _ _

omit [DecidableEq κ] in
theorem length_retain_le (table : KeyedTable key) (p : ρ → Bool) :
    (table.retain p).rows.length ≤ table.rows.length :=
  length_filter_le _ _

theorem length_put_le (table : KeyedTable key) (row : ρ) :
    (table.put row).rows.length ≤ table.rows.length + 1 := by
  unfold put
  split
  · rw [length_map]
    exact Nat.le_succ _
  · simp

theorem length_makeRoom_lt (hpos : 0 < limit) (touched : ρ → Nat) (pick : κ)
    (hbound : table.rows.length ≤ limit) :
    (table.makeRoom limit touched pick).rows.length < limit := by
  unfold makeRoom
  by_cases hfull : limit ≤ table.rows.length
  · have hne : table.rows ≠ [] := by
      intro hnil
      rw [hnil] at hfull
      exact absurd (Nat.lt_of_lt_of_le hpos hfull) (Nat.lt_irrefl 0)
    obtain ⟨old, hold, holdest⟩ := exists_oldest touched pick hne
    rw [if_pos hfull, holdest]
    have hlength := length_erase
      ((table.find?_eq_some_iff (key old) old).mpr ⟨hold, rfl⟩)
    simp only
    omega
  · rw [if_neg hfull]
    exact Nat.lt_of_not_le hfull

theorem length_put_makeRoom_le (hpos : 0 < limit) (touched : ρ → Nat) (pick : κ)
    (hbound : table.rows.length ≤ limit) (row : ρ) :
    ((table.makeRoom limit touched pick).put row).rows.length ≤ limit :=
  Nat.le_trans (length_put_le _ row)
    (length_makeRoom_lt hpos touched pick hbound)

/-- What is left was there before. -/
theorem find?_of_makeRoom {touched : ρ → Nat} {pick k : κ} {row : ρ}
    (hfind : (table.makeRoom limit touched pick).find? k = some row) :
    table.find? k = some row := by
  unfold makeRoom at hfind
  split at hfind
  · split at hfind
    · rw [find?_erase] at hfind
      split at hfind
      · cases hfind
      · exact hfind
    · exact hfind
  · exact hfind

end KeyedTable

end Vellum
