/-
A list that is paid for from a budget, one element after the other, until an
element costs more than is left.  Costs that are rounded down one by one lose
their remainders.
-/
import Mathlib

namespace Vellum

open List

universe u

variable {α : Type u}

/-- What a list costs. -/
def totalCost (cost : α → Nat) (xs : List α) : Nat := (xs.map cost).sum

theorem totalCost_cons (cost : α → Nat) (x : α) (xs : List α) :
    totalCost cost (x :: xs) = cost x + totalCost cost xs := by
  rw [totalCost, map_cons, sum_cons, totalCost]

theorem totalCost_append (cost : α → Nat) (xs ys : List α) :
    totalCost cost (xs ++ ys) = totalCost cost xs + totalCost cost ys := by
  rw [totalCost, map_append, sum_append, totalCost, totalCost]

theorem totalCost_reverse (cost : α → Nat) (xs : List α) :
    totalCost cost xs.reverse = totalCost cost xs := by
  rw [totalCost, map_reverse, sum_reverse, totalCost]

theorem totalCost_mono {cost other : α → Nat} (hcost : ∀ x, cost x ≤ other x)
    (xs : List α) : totalCost cost xs ≤ totalCost other xs :=
  sum_le_sum fun x _ => hcost x

theorem totalCost_eq_div_add_mod (cost : α → Nat) (divisor : Nat)
    (xs : List α) :
    totalCost cost xs =
      divisor * totalCost (fun x => cost x / divisor) xs +
        totalCost (fun x => cost x % divisor) xs := by
  induction xs with
  | nil => simp [totalCost]
  | cons x xs ih =>
    have hx := Nat.div_add_mod (cost x) divisor
    rw [totalCost_cons, totalCost_cons, totalCost_cons, ih, Nat.mul_add]
    omega

/-- How many elements are paid for when `used` is spent already. -/
def affordable (cost : α → Nat) (budget : Nat) : Nat → List α → Nat
  | _, [] => 0
  | used, x :: rest =>
    if budget < used + cost x then 0
    else affordable cost budget (used + cost x) rest + 1

variable {cost : α → Nat} {budget : Nat}

/-- What is paid for is within the budget. -/
theorem totalCost_take_affordable {used : Nat} (hused : used ≤ budget)
    (xs : List α) :
    used + totalCost cost (xs.take (affordable cost budget used xs)) ≤
      budget := by
  induction xs generalizing used with
  | nil => simpa [totalCost] using hused
  | cons x rest ih =>
    rw [affordable]
    split
    · simpa [totalCost] using hused
    · rename_i hfits
      have hrest := ih (Nat.not_lt.mp hfits)
      rw [take_succ_cons, totalCost_cons]
      omega

/-- Any front of the list that is within the budget is paid for. -/
theorem length_le_affordable {used : Nat} {front rest : List α}
    (hfits : used + totalCost cost front ≤ budget) :
    front.length ≤ affordable cost budget used (front ++ rest) := by
  induction front generalizing used with
  | nil => exact Nat.zero_le _
  | cons x front ih =>
    rw [totalCost_cons] at hfits
    rw [cons_append, affordable, if_neg (by omega), length_cons]
    exact Nat.succ_le_succ (ih (by omega))

end Vellum
