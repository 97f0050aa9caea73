/-
The order in which things arrive for the first time.  A thing that was not
seen before takes the next place and keeps it.
-/
import Mathlib

namespace Vellum

open List

universe u

variable {α : Type u} [DecidableEq α]

namespace Arrivals

/-- One more arrival. -/
def arrive (seen : List α) (thing : α) : List α :=
  if thing ∈ seen then seen else seen ++ [thing]

def arriveAll (seen : List α) : List α → List α
  | [] => seen
  | thing :: rest => arriveAll (arrive seen thing) rest

/-- The place that an arrival takes. -/
def taken (seen : List α) (thing : α) : List (Nat × α) :=
  if thing ∈ seen then [] else [(seen.length, thing)]

def takenAll (seen : List α) : List α → List (Nat × α)
  | [] => []
  | thing :: rest => taken seen thing ++ takenAll (arrive seen thing) rest

theorem arriveAll_append (seen front back : List α) :
    arriveAll seen (front ++ back) = arriveAll (arriveAll seen front) back := by
  induction front generalizing seen with
  | nil => rfl
  | cons thing rest ih => exact ih (arrive seen thing)

theorem takenAll_append (seen front back : List α) :
    takenAll seen (front ++ back) =
      takenAll seen front ++ takenAll (arriveAll seen front) back := by
  induction front generalizing seen with
  | nil => rfl
  | cons thing rest ih =>
    rw [cons_append, takenAll, takenAll, ih, append_assoc]
    rfl

variable {seen : List α} {thing : α}

theorem arrive_of_mem (hmem : thing ∈ seen) :
    arrive seen thing = seen := if_pos hmem

theorem arrive_of_notMem (hnew : thing ∉ seen) :
    arrive seen thing = seen ++ [thing] := if_neg hnew

theorem nodup_arrive (hnodup : seen.Nodup) (thing : α) :
    (arrive seen thing).Nodup := by
  rw [arrive]
  split
  · exact hnodup
  · rename_i hnew
    exact hnodup.append (nodup_singleton _)
      (disjoint_singleton.mpr hnew)

theorem nodup_arriveAll (hnodup : seen.Nodup) (things : List α) :
    (arriveAll seen things).Nodup := by
  induction things generalizing seen with
  | nil => exact hnodup
  | cons thing rest ih => exact ih (nodup_arrive hnodup thing)

/-- Whatever has a place keeps it. -/
theorem prefix_arriveAll (seen things : List α) :
    seen <+: arriveAll seen things := by
  induction things generalizing seen with
  | nil => exact prefix_refl seen
  | cons thing rest ih =>
    have hone : seen <+: arrive seen thing := by
      rw [arrive]
      split
      · exact prefix_refl seen
      · exact prefix_append seen _
    exact hone.trans (ih (arrive seen thing))

theorem mem_arriveAll {things : List α} :
    thing ∈ arriveAll seen things ↔ thing ∈ seen ∨ thing ∈ things := by
  induction things generalizing seen with
  | nil => simp [arriveAll]
  | cons next rest ih =>
    rw [arriveAll, ih, arrive, List.mem_cons, ← or_assoc]
    refine or_congr_left ?_
    split
    · rename_i hmem
      exact ⟨Or.inl, fun hor => hor.elim id fun heq => heq ▸ hmem⟩
    · rw [List.mem_append, List.mem_singleton]

theorem arriveAll_of_subset {things : List α}
    (hknown : ∀ thing ∈ things, thing ∈ seen) :
    arriveAll seen things = seen := by
  induction things with
  | nil => rfl
  | cons next rest ih =>
    rw [List.forall_mem_cons] at hknown
    rw [arriveAll, arrive_of_mem hknown.1]
    exact ih hknown.2

/-- The places taken are those behind the ones that were seen. -/
theorem mem_takenAll_iff {things : List α} {place : Nat} :
    (place, thing) ∈ takenAll seen things ↔
      seen.length ≤ place ∧ (arriveAll seen things)[place]? = some thing := by
  induction things generalizing seen with
  | nil =>
    constructor
    · rintro ⟨⟩
    · rintro ⟨hle, hget⟩
      rw [arriveAll, getElem?_eq_none hle] at hget
      cases hget
  | cons next rest ih =>
    rw [takenAll, mem_append, ih, taken, arriveAll]
    by_cases hmem : next ∈ seen
    · simp [arrive_of_mem hmem, hmem]
    · have hkept := prefix_arriveAll (arrive seen next) rest
      rw [arrive_of_notMem hmem] at hkept ⊢
      obtain ⟨more, hmore⟩ := hkept
      have hplace : (arriveAll (seen ++ [next]) rest)[seen.length]? =
          some next := by
        rw [← hmore]
        simp
      rw [if_neg hmem, mem_singleton, Prod.mk.injEq,
        length_append, length_singleton]
      constructor
      · rintro (⟨rfl, rfl⟩ | ⟨hlt, hget⟩)
        · exact ⟨Nat.le_refl _, hplace⟩
        · exact ⟨by omega, hget⟩
      · rintro ⟨hle, hget⟩
        rcases Nat.eq_or_lt_of_le hle with rfl | hlt
        · rw [hplace] at hget
          exact Or.inl ⟨rfl, (Option.some.inj hget).symm⟩
        · exact Or.inr ⟨hlt, hget⟩

end Arrivals

end Vellum
