/-
The first of the greatest elements of a list, and when it does not depend on
the order of the list.  The elements may be given through a partial reading of
the entries of another list.
-/
import Mathlib

namespace Vellum

open List

universe u v w x

variable {α : Type u} {β : Type v} {γ : Type w} {δ : Type x} [LinearOrder γ]

/-- No element of the list has a greater value. -/
def Greatest (f : β → γ) (xs : List β) (x : β) : Prop :=
  x ∈ xs ∧ ∀ y ∈ xs, f y ≤ f x

variable {f : β → γ} {xs ys : List β} {x y : β}

theorem Greatest.value_eq (hx : Greatest f xs x) (hy : Greatest f xs y) :
    f x = f y :=
  le_antisymm (hy.2 x hx.1) (hx.2 y hy.1)

theorem Greatest.of_perm (hperm : xs.Perm ys) (hx : Greatest f xs x) :
    Greatest f ys x :=
  ⟨hperm.mem_iff.mp hx.1, fun y hy => hx.2 y (hperm.mem_iff.mpr hy)⟩

theorem greatest_of_argmax (hmax : xs.argmax f = some x) : Greatest f xs x :=
  ⟨argmax_mem hmax, fun _ hy => le_of_mem_argmax hy hmax⟩

/-- An element that no other exceeds is found when it comes first. -/
theorem argmax_cons_of_greatest (hx : Greatest f (x :: xs) x) :
    (x :: xs).argmax f = some x := by
  rw [argmax_cons]
  cases hmax : xs.argmax f with
  | none => rfl
  | some y =>
    have hle : f y ≤ f x :=
      hx.2 y (mem_cons_of_mem x (argmax_mem hmax))
    simp [not_lt.mpr hle]

/-- What is read of the first greatest element is the same for every order of
the list exactly when all greatest elements agree in it. -/
theorem argmax_filterMap_perm_iff (f : β → γ) (g : β → δ) (h : α → Option β)
    (entries : List α) :
    (∀ others, entries.Perm others →
        ((others.filterMap h).argmax f).map g =
          ((entries.filterMap h).argmax f).map g) ↔
      ∀ x y, Greatest f (entries.filterMap h) x →
        Greatest f (entries.filterMap h) y → g x = g y := by
  constructor
  · intro hsame
    -- Each greatest element can be brought to the front.
    have hfirst : ∀ x, Greatest f (entries.filterMap h) x →
        some (g x) = ((entries.filterMap h).argmax f).map g := by
      intro x hx
      obtain ⟨entry, hentry, hread⟩ := mem_filterMap.mp hx.1
      obtain ⟨front, rest, rfl⟩ := append_of_mem hentry
      have hperm : (front ++ entry :: rest).Perm (entry :: (front ++ rest)) :=
        perm_middle
      have hmoved := hx.of_perm (hperm.filterMap h)
      rw [← hsame _ hperm]
      rw [filterMap_cons_some hread] at hmoved ⊢
      rw [argmax_cons_of_greatest hmoved, Option.map_some]
    intro x y hx hy
    exact Option.some.inj ((hfirst x hx).trans (hfirst y hy).symm)
  · intro hagree others hperm
    have hreads := hperm.filterMap h
    cases hmax : (entries.filterMap h).argmax f with
    | none =>
      rw [argmax_eq_none] at hmax
      rw [hmax] at hreads
      rw [hreads.symm.eq_nil, argmax_nil]
    | some x =>
      cases hother : (others.filterMap h).argmax f with
      | none =>
        rw [argmax_eq_none] at hother
        rw [hother] at hreads
        rw [hreads.eq_nil, argmax_nil] at hmax
        cases hmax
      | some y =>
        have hy := (greatest_of_argmax hother).of_perm hreads.symm
        exact congrArg some (hagree y x hy (greatest_of_argmax hmax))

end Vellum
