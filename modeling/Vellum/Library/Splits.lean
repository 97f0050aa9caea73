/-
What holds at every place of a list: of each entry with what stands before it
and behind it.
-/
import Mathlib

namespace Vellum

open List

namespace Splits

universe u

variable {α : Type u} {holds : List α → α → List α → Prop}

theorem forall_nil : ∀ front item back, [] = front ++ item :: back →
    holds front item back := by
  intro front item back heq
  cases front <;> cases heq

/-- The first place, and then each place of the rest. -/
theorem forall_cons {first : α} {rest : List α} :
    (∀ front item back, first :: rest = front ++ item :: back →
        holds front item back) ↔
      holds [] first rest ∧
        ∀ front item back, rest = front ++ item :: back →
          holds (first :: front) item back := by
  constructor
  · intro hall
    refine ⟨hall [] first rest rfl, ?_⟩
    rintro front item back rfl
    exact hall (first :: front) item back rfl
  · rintro ⟨hfirst, hrest⟩ front item back heq
    cases front with
    | nil =>
      cases heq
      exact hfirst
    | cons other front =>
      cases heq
      exact hrest front item back rfl

/-- Each place of the front, and then the last one. -/
theorem forall_concat {holds : List α → α → Prop} {front : List α} {last : α} :
    (∀ before item back, front ++ [last] = before ++ item :: back →
        holds before item) ↔
      (∀ before item back, front = before ++ item :: back →
        holds before item) ∧ holds front last := by
  constructor
  · intro hall
    refine ⟨?_, hall front last [] rfl⟩
    rintro before item back rfl
    exact hall before item (back ++ [last]) (by simp)
  · rintro ⟨hfront, hlast⟩ before item back heq
    rcases eq_nil_or_concat back with rfl | ⟨more, final, rfl⟩
    · obtain ⟨rfl, hitem⟩ := append_inj' heq rfl
      cases hitem
      exact hlast
    · rw [concat_eq_append, ← cons_append,
        ← append_assoc] at heq
      exact hfront before item more (append_inj' heq rfl).1

/-- Of two places of a list one is in front of the other, or they are one. -/
theorem compare {front front' back back' : List α} {item item' : α}
    (heq : front ++ item :: back = front' ++ item' :: back') :
    (front = front' ∧ item = item') ∨ (∃ mid, front' = front ++ item :: mid) ∨
      ∃ mid, front = front' ++ item' :: mid := by
  rcases append_eq_append_iff.mp heq with
    ⟨mid, hfront, hrest⟩ | ⟨mid, hfront, hrest⟩
  · cases mid with
    | nil =>
      cases hrest
      exact Or.inl ⟨by simpa using hfront.symm, rfl⟩
    | cons next mid =>
      cases hrest
      exact Or.inr (Or.inl ⟨mid, hfront⟩)
  · cases mid with
    | nil =>
      cases hrest
      exact Or.inl ⟨by simpa using hfront, rfl⟩
    | cons next mid =>
      cases hrest
      exact Or.inr (Or.inr ⟨mid, hfront⟩)

theorem not_nodup_twice {front mid back : List α} {item : α} :
    ¬ (front ++ item :: (mid ++ item :: back)).Nodup := by
  intro hnodup
  exact (nodup_cons.mp (nodup_append.mp hnodup).2.1).1
    (mem_append_right mid mem_cons_self)

/-- What stands before each entry that satisfies a predicate. -/
def beforeEach (p : α → Bool) (front : List α) : List α → List (List α)
  | [] => []
  | item :: rest =>
    if p item then front :: beforeEach p (front ++ [item]) rest
    else beforeEach p (front ++ [item]) rest

theorem beforeEach_concat {p : α → Bool} {front items : List α} {item : α} :
    beforeEach p front (items ++ [item]) =
      beforeEach p front items ++ if p item then [front ++ items] else [] := by
  induction items generalizing front with
  | nil => simp [beforeEach]
  | cons first rest ih =>
    rw [cons_append, beforeEach, beforeEach, ih, append_assoc, singleton_append]
    split <;> rfl

theorem forall₂_concat_iff {β : Type u} {R : α → β → Prop} {xs : List α}
    {ys : List β} {x : α} {y : β} :
    Forall₂ R (xs ++ [x]) (ys ++ [y]) ↔ Forall₂ R xs ys ∧ R x y := by
  rw [← forall₂_reverse_iff]
  simp [and_comm]

theorem sublistForall₂_mono {β : Type u} {R : α → β → Prop} {xs : List α}
    {ys zs : List β} (hplaced : SublistForall₂ R xs ys) (hsub : ys <+ zs) :
    SublistForall₂ R xs zs := by
  obtain ⟨places, hrelated, hwithin⟩ := sublistForall₂_iff.mp hplaced
  exact sublistForall₂_iff.mpr ⟨places, hrelated, hwithin.trans hsub⟩

/-- The last of some entries is placed behind all the others. -/
theorem sublistForall₂_concat_iff {β : Type u} {R : α → β → Prop}
    {xs : List α} {ys : List β} {x : α} :
    SublistForall₂ R (xs ++ [x]) ys ↔ ∃ front y back,
      ys = front ++ y :: back ∧ SublistForall₂ R xs front ∧ R x y := by
  rw [sublistForall₂_iff]
  constructor
  · rintro ⟨places, hrelated, hsub⟩
    rcases eq_nil_or_concat places with rfl | ⟨early, y, rfl⟩
    · simp at hrelated
    · rw [concat_eq_append] at hrelated hsub
      obtain ⟨hearly, hlast⟩ := forall₂_concat_iff.mp hrelated
      obtain ⟨left, right, rfl, hleft, hright⟩ := append_sublist_iff.mp hsub
      obtain ⟨mid, back, rfl⟩ := append_of_mem (singleton_sublist.mp hright)
      have hplaced := sublistForall₂_iff.mpr ⟨early, hearly, hleft⟩
      exact ⟨left ++ mid, y, back, (append_assoc ..).symm,
        sublistForall₂_mono hplaced (sublist_append_left left mid), hlast⟩
  · rintro ⟨front, y, back, rfl, hfront, hlast⟩
    obtain ⟨early, hearly, hsub⟩ := sublistForall₂_iff.mp hfront
    exact ⟨early ++ [y], forall₂_concat_iff.mpr ⟨hearly, hlast⟩,
      hsub.append (singleton_sublist.mpr mem_cons_self)⟩

end Splits

end Vellum
