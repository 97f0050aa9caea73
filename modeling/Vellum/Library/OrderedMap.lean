/-
Maps kept as lists of entries in increasing order of their keys, as a
`BTreeMap` iterates them.
-/
import Mathlib

namespace Vellum

open List

universe u

variable {V : Type u}

namespace OrderedMap

/-- The value of a key. -/
def lookup (key : Nat) : List (Nat × V) → Option V
  | [] => none
  | entry :: rest => if entry.1 = key then some entry.2 else lookup key rest

/-- Replace the value of a key by what `update` makes of it, or put the key
in its place when the map does not hold it. -/
def upsert (key : Nat) (update : Option V → V) :
    List (Nat × V) → List (Nat × V)
  | [] => [(key, update none)]
  | entry :: rest =>
    if entry.1 = key then (key, update (some entry.2)) :: rest
    else if key < entry.1 then (key, update none) :: entry :: rest
    else entry :: upsert key update rest

/-- Keys in increasing order. -/
def Sorted (entries : List (Nat × V)) : Prop :=
  (entries.map Prod.fst).Pairwise (· < ·)

variable {key : Nat} {update : Option V → V} {entries : List (Nat × V)}
  {entry : Nat × V}

theorem lookup_eq_none_of_lt (hlt : ∀ entry ∈ entries, key < entry.1) :
    lookup key entries = none := by
  induction entries with
  | nil => rfl
  | cons entry rest ih =>
    have hhead := hlt entry mem_cons_self
    rw [lookup, if_neg (by omega)]
    exact ih fun other hother => hlt other (mem_cons_of_mem entry hother)

/-- Updating a key touches no other. -/
theorem lookup_upsert (key : Nat) (update : Option V → V)
    (hsorted : Sorted entries) (other : Nat) :
    lookup other (upsert key update entries) =
      if other = key then some (update (lookup key entries))
      else lookup other entries := by
  induction entries with
  | nil => simp [upsert, lookup, eq_comm]
  | cons entry rest ih =>
    simp only [Sorted, map_cons, pairwise_cons] at hsorted
    rw [upsert]
    by_cases heq : entry.1 = key
    · rw [if_pos heq]
      by_cases hother : other = key
      · simp [lookup, heq, hother]
      · have hne : ¬ key = other := fun h => hother h.symm
        simp [lookup, heq, hother, hne]
    · rw [if_neg heq]
      by_cases hlt : key < entry.1
      · have hnone : lookup key (entry :: rest) = none := by
          apply lookup_eq_none_of_lt
          intro found hfound
          rcases mem_cons.mp hfound with rfl | hfound
          · exact hlt
          · exact Nat.lt_trans hlt
              (hsorted.1 found.1 (mem_map_of_mem hfound))
        rw [if_pos hlt, hnone, lookup]
        by_cases hother : other = key
        · simp [hother]
        · have hne : ¬ key = other := fun h => hother h.symm
          simp [hother, hne]
      · rw [if_neg hlt, lookup, ih hsorted.2, lookup]
        by_cases hother : other = key
        · have hne : ¬ entry.1 = other := fun h => heq (h.trans hother)
          simp [hother, heq]
        · simp [hother, lookup]

theorem mem_upsert (hentry : entry ∈ upsert key update entries) :
    entry ∈ entries ∨ entry.1 = key := by
  induction entries with
  | nil =>
    rw [upsert, mem_singleton] at hentry
    exact Or.inr (by rw [hentry])
  | cons head rest ih =>
    rw [upsert] at hentry
    split at hentry
    · rcases mem_cons.mp hentry with rfl | hentry
      · exact Or.inr rfl
      · exact Or.inl (mem_cons_of_mem head hentry)
    · split at hentry
      · rcases mem_cons.mp hentry with rfl | hentry
        · exact Or.inr rfl
        · exact Or.inl hentry
      · rcases mem_cons.mp hentry with rfl | hentry
        · exact Or.inl mem_cons_self
        · rcases ih hentry with hold | hkey
          · exact Or.inl (mem_cons_of_mem head hold)
          · exact Or.inr hkey

theorem Sorted.upsert (hsorted : Sorted entries) (key : Nat)
    (update : Option V → V) : Sorted (upsert key update entries) := by
  induction entries with
  | nil => simp [Sorted, OrderedMap.upsert]
  | cons entry rest ih =>
    have hcons := hsorted
    simp only [Sorted, map_cons, pairwise_cons] at hcons
    rw [OrderedMap.upsert]
    split
    · rename_i heq
      simp only [Sorted, map_cons, pairwise_cons]
      exact ⟨heq ▸ hcons.1, hcons.2⟩
    · rename_i hne
      split
      · rename_i hlt
        simp only [Sorted, map_cons, pairwise_cons]
        refine ⟨?_, hcons⟩
        refine forall_mem_cons.mpr ⟨hlt, fun other hother => ?_⟩
        exact Nat.lt_trans hlt (hcons.1 other hother)
      · rename_i hlt
        simp only [Sorted, map_cons, pairwise_cons]
        refine ⟨?_, ih hcons.2⟩
        intro other hother
        obtain ⟨found, hfound, rfl⟩ := mem_map.mp hother
        rcases mem_upsert hfound with hold | hkey
        · exact hcons.1 found.1 (mem_map_of_mem hold)
        · omega

/-- A key that is not there becomes one more entry. -/
theorem upsert_perm (hnone : lookup key entries = none) :
    (upsert key update entries).Perm ((key, update none) :: entries) := by
  induction entries with
  | nil => exact List.Perm.refl _
  | cons entry rest ih =>
    rw [lookup] at hnone
    split at hnone
    · cases hnone
    · rename_i hne
      rw [upsert, if_neg hne]
      split
      · exact List.Perm.refl _
      · exact ((ih hnone).cons entry).trans (List.Perm.swap ..)

/-- What an update of a key that is there leaves as it was. -/
theorem map_upsert {W : Type u} (hsorted : Sorted entries) {old : V}
    (hlookup : lookup key entries = some old) {view : Nat × V → W}
    (hview : view (key, update (some old)) = view (key, old)) :
    (upsert key update entries).map view = entries.map view := by
  induction entries with
  | nil => cases hlookup
  | cons entry rest ih =>
    simp only [Sorted, map_cons, pairwise_cons] at hsorted
    rw [lookup] at hlookup
    split at hlookup
    · rename_i heq
      cases hlookup
      rw [upsert, if_pos heq, map_cons, map_cons, hview, ← heq]
    · rename_i hne
      have hge : ¬ key < entry.1 := by
        intro hlt
        rw [lookup_eq_none_of_lt fun found hfound => Nat.lt_trans hlt
          (hsorted.1 found.1 (mem_map_of_mem hfound))] at hlookup
        cases hlookup
      rw [upsert, if_neg hne, if_neg hge, map_cons, map_cons,
        ih hsorted.2 hlookup]

theorem mem_of_lookup {value : V} (hlookup : lookup key entries = some value) :
    (key, value) ∈ entries := by
  induction entries with
  | nil => cases hlookup
  | cons entry rest ih =>
    rw [lookup] at hlookup
    split at hlookup
    · rename_i heq
      cases hlookup
      rw [← heq]
      exact mem_cons_self
    · exact mem_cons_of_mem entry (ih hlookup)

theorem lookup_of_mem (hsorted : Sorted entries) (hentry : entry ∈ entries) :
    lookup entry.1 entries = some entry.2 := by
  induction entries with
  | nil => cases hentry
  | cons head rest ih =>
    simp only [Sorted, map_cons, pairwise_cons] at hsorted
    rcases mem_cons.mp hentry with rfl | hrest
    · rw [lookup, if_pos rfl]
    · have hlt := hsorted.1 entry.1 (mem_map_of_mem hrest)
      rw [lookup, if_neg (by omega)]
      exact ih hsorted.2 hrest

/-- The entries after an update: the updated one, and the others. -/
theorem mem_upsert_of_sorted (hsorted : Sorted entries)
    (hentry : entry ∈ upsert key update entries) :
    entry = (key, update (lookup key entries)) ∨
      entry.1 ≠ key ∧ entry ∈ entries := by
  have hlookup := lookup_of_mem (hsorted.upsert key update) hentry
  rw [lookup_upsert key update hsorted] at hlookup
  split at hlookup
  · rename_i hkey
    exact Or.inl (Prod.ext hkey (Option.some.inj hlookup).symm)
  · rename_i hkey
    exact Or.inr ⟨hkey, mem_of_lookup hlookup⟩

theorem lookup_map {W : Type u} (view : V → W) (key : Nat)
    (entries : List (Nat × V)) :
    lookup key (entries.map fun entry => (entry.1, view entry.2)) =
      (lookup key entries).map view := by
  induction entries with
  | nil => rfl
  | cons entry rest ih =>
    rw [map_cons, lookup, lookup]
    split
    · rfl
    · exact ih

theorem Sorted.map {W : Type u} (hsorted : Sorted entries) (view : V → W) :
    Sorted (entries.map fun entry => (entry.1, view entry.2)) := by
  rw [Sorted, map_map]
  exact hsorted

/-- A map whose keys are the positions of a list holds the list. -/
theorem eq_zipIdx (hsorted : Sorted entries) {values : List V} {start : Nat}
    (hstart : ∀ entry ∈ entries, start ≤ entry.1)
    (hlookup : ∀ i, lookup (start + i) entries = values[i]?) :
    entries = (values.zipIdx start).map Prod.swap := by
  induction values generalizing entries start with
  | nil =>
    cases entries with
    | nil => rfl
    | cons entry rest =>
      have hhead := hstart entry mem_cons_self
      have hnone := hlookup (entry.1 - start)
      rw [lookup, if_pos (by omega)] at hnone
      cases hnone
  | cons value values ih =>
    cases entries with
    | nil =>
      have hnone := hlookup 0
      cases hnone
    | cons entry rest =>
      have hcons := hsorted
      simp only [Sorted, map_cons, pairwise_cons] at hcons
      have hrest : ∀ other ∈ rest, entry.1 < other.1 :=
        fun other hother => hcons.1 other.1 (mem_map_of_mem hother)
      have hfirst := hlookup 0
      have hkey : entry.1 = start := by
        by_contra hne
        have hge := hstart entry mem_cons_self
        rw [lookup_eq_none_of_lt] at hfirst
        · cases hfirst
        · intro other hother
          rcases mem_cons.mp hother with rfl | hother
          · omega
          · have := hrest other hother
            omega
      rw [Nat.add_zero, lookup, if_pos hkey] at hfirst
      have hvalue : entry.2 = value := Option.some.inj hfirst
      have hkeys : ∀ other ∈ rest, start + 1 ≤ other.1 := by
        intro other hother
        have := hrest other hother
        omega
      have hbehind : ∀ i, lookup (start + 1 + i) rest = values[i]? := by
        intro i
        have hnext := hlookup (i + 1)
        rw [lookup, if_neg (by omega)] at hnext
        rw [Nat.add_assoc, Nat.add_comm 1 i]
        exact hnext
      have htail := ih hcons.2 hkeys hbehind
      rw [zipIdx_cons, map_cons, ← htail]
      have hentry : entry = (value, start).swap :=
        Prod.ext hkey hvalue
      rw [← hentry]

end OrderedMap

end Vellum
