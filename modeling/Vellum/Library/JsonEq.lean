/-
Equality of JSON values as a program sees it.  The order of an object's fields
does not count, nor does the sign of a zero.
-/
import Vellum.Library.Json

namespace Vellum

/-- A zero of either sign. -/
def JsonNumber.isFloatZero (bits : UInt64) : Bool :=
  bits = 0 || bits = 0x8000000000000000

def JsonNumber.eqValue : JsonNumber → JsonNumber → Bool
  | .int left, .int right => left = right
  | .float left, .float right =>
    left = right || (isFloatZero left && isFloatZero right)
  | _, _ => false

namespace Json

mutual

def eqValue : Json → Json → Bool
  | .null, .null => true
  | .bool left, .bool right => left = right
  | .num left, .num right => left.eqValue right
  | .str left, .str right => left = right
  | .arr left, .arr right => eqItems left right
  | .obj left, .obj right =>
    left.length = right.length && eqFields left right
  | _, _ => false

def eqItems : List Json → List Json → Bool
  | [], [] => true
  | x :: xs, y :: ys => eqValue x y && eqItems xs ys
  | _, _ => false

/-- Each field of the left is on the right. -/
def eqFields : List (String × Json) → List (String × Json) → Bool
  | [], _ => true
  | (name, value) :: rest, right =>
    (match right.find? fun field => field.1 = name with
      | some field => eqValue value field.2
      | none => false) && eqFields rest right

end

/-- The same value, or one that only differs in the order of fields. -/
def Same (left right : Json) : Prop := left = right ∨ left.eqValue right = true

theorem Same.refl (value : Json) : value.Same value := Or.inl rfl

theorem same_of_eqItems {left right : List Json}
    (heq : eqItems left right = true) : List.Forall₂ Same left right := by
  induction left generalizing right with
  | nil =>
    cases right with
    | nil => exact .nil
    | cons y ys => cases heq
  | cons x xs ih =>
    cases right with
    | nil => cases heq
    | cons y ys =>
      rw [eqItems, Bool.and_eq_true] at heq
      exact .cons (Or.inr heq.1) (ih heq.2)

/-- How many arrays of one item are around a value. -/
def wraps : Json → Nat
  | .arr [item] => wraps item + 1
  | _ => 0

theorem wraps_eq_of_eqValue {left right : Json}
    (heq : left.eqValue right = true) : left.wraps = right.wraps := by
  induction left using wraps.induct generalizing right with
  | case1 item ih =>
    match right, heq with
    | .arr [other], heq =>
      have hitem : item.eqValue other = true := by
        simpa [eqValue, eqItems] using heq
      rw [wraps, wraps, ih hitem]
    | .arr [], heq => simp [eqValue, eqItems] at heq
    | .arr (_ :: _ :: _), heq => simp [eqValue, eqItems] at heq
  | case2 left hnot =>
    match left, right, heq with
    | .arr [], .arr [], _ => rfl
    | .arr (_ :: _ :: _), .arr (_ :: _ :: _), _ => rfl
    | .arr [], .arr (_ :: _), heq => simp [eqValue, eqItems] at heq
    | .arr (_ :: _ :: _), .arr [], heq => simp [eqValue, eqItems] at heq
    | .arr (_ :: _ :: _), .arr [_], heq => simp [eqValue, eqItems] at heq
    | .arr [item], _, _ => exact absurd rfl (hnot item)
    | .null, .null, _ => rfl
    | .bool _, .bool _, _ => rfl
    | .num _, .num _, _ => rfl
    | .str _, .str _, _ => rfl
    | .obj _, .obj _, _ => rfl

theorem not_same_singleton (item : Json) : ¬ (arr [item]).Same item := by
  have hwraps : (arr [item]).wraps = item.wraps + 1 := by rw [wraps]
  rintro (heq | heq)
  · rw [heq] at hwraps
    omega
  · have := wraps_eq_of_eqValue heq
    omega

end Json

end Vellum
