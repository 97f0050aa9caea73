/-
Text measured in bytes of UTF-8, and slices of it at byte offsets.  A slice at
an offset inside a character does not exist: the standard library panics there.
-/
import Mathlib

namespace Vellum

open List Option

namespace Utf8Slice

/-- `str::len`. -/
def byteLen : List Char → Nat
  | [] => 0
  | c :: rest => c.utf8Size + byteLen rest

@[simp]
theorem byteLen_append (front back : List Char) :
    byteLen (front ++ back) = byteLen front + byteLen back := by
  induction front with
  | nil => simp [byteLen]
  | cons c rest ih => simp [byteLen, ih, Nat.add_assoc]

@[simp]
theorem byteLen_singleton (c : Char) : byteLen [c] = c.utf8Size := rfl

/-- `&text[..offset]`. -/
def sliceTo : Nat → List Char → Option (List Char)
  | 0, _ => some []
  | _ + 1, [] => none
  | offset + 1, c :: rest =>
    if c.utf8Size ≤ offset + 1 then
      (sliceTo (offset + 1 - c.utf8Size) rest).map (c :: ·)
    else none

/-- `&text[offset..]`. -/
def sliceFrom : Nat → List Char → Option (List Char)
  | 0, text => some text
  | _ + 1, [] => none
  | offset + 1, c :: rest =>
    if c.utf8Size ≤ offset + 1 then sliceFrom (offset + 1 - c.utf8Size) rest
    else none

/-- One character in front of an offset that lies behind it. -/
theorem sliceTo_cons (c : Char) (offset : Nat) (rest : List Char) :
    sliceTo (c.utf8Size + offset) (c :: rest) =
      (sliceTo offset rest).map (c :: ·) := by
  obtain ⟨n, hn⟩ : ∃ n, c.utf8Size + offset = n + 1 :=
    ⟨c.utf8Size + offset - 1, by have := c.utf8Size_pos; omega⟩
  rw [hn, sliceTo, if_pos (by omega), ← hn, Nat.add_sub_cancel_left]

theorem sliceFrom_cons (c : Char) (offset : Nat) (rest : List Char) :
    sliceFrom (c.utf8Size + offset) (c :: rest) = sliceFrom offset rest := by
  obtain ⟨n, hn⟩ : ∃ n, c.utf8Size + offset = n + 1 :=
    ⟨c.utf8Size + offset - 1, by have := c.utf8Size_pos; omega⟩
  rw [hn, sliceFrom, if_pos (by omega), ← hn, Nat.add_sub_cancel_left]

/-- The end of a leading part is a boundary. -/
theorem sliceTo_append (front back : List Char) :
    sliceTo (byteLen front) (front ++ back) = some front := by
  induction front with
  | nil => rw [byteLen, sliceTo]
  | cons c rest ih => rw [byteLen, cons_append, sliceTo_cons, ih]; rfl

theorem sliceFrom_append (front back : List Char) :
    sliceFrom (byteLen front) (front ++ back) = some back := by
  induction front with
  | nil => rw [byteLen, nil_append, sliceFrom]
  | cons c rest ih => rw [byteLen, cons_append, sliceFrom_cons, ih]

theorem byteLen_of_sliceTo {offset : Nat} {text front : List Char}
    (hslice : sliceTo offset text = some front) : byteLen front = offset := by
  induction text generalizing offset front with
  | nil =>
    cases offset with
    | zero => rw [← some.inj hslice, byteLen]
    | succ offset => cases hslice
  | cons c rest ih =>
    cases offset with
    | zero => rw [← some.inj hslice, byteLen]
    | succ offset =>
      rw [sliceTo] at hslice
      split at hslice
      · obtain ⟨more, hmore, rfl⟩ := map_eq_some_iff.mp hslice
        rw [byteLen, ih hmore]
        omega
      · cases hslice

theorem byteLen_of_sliceFrom {offset : Nat} {text back : List Char}
    (hslice : sliceFrom offset text = some back) :
    offset + byteLen back = byteLen text := by
  induction text generalizing offset with
  | nil =>
    cases offset with
    | zero => rw [← some.inj hslice, Nat.zero_add]
    | succ offset => cases hslice
  | cons c rest ih =>
    cases offset with
    | zero => rw [← some.inj hslice, Nat.zero_add]
    | succ offset =>
      rw [sliceFrom] at hslice
      split at hslice
      · rw [byteLen, ← ih hslice]
        omega
      · cases hslice

/-- `text.char_indices()`, for a text that starts at an offset. -/
def charIndices : Nat → List Char → List (Nat × Char)
  | _, [] => []
  | offset, c :: rest => (offset, c) :: charIndices (offset + c.utf8Size) rest

/-- A loop over the characters of a text: what holds before the first one and
is kept by each, given the text already read, holds at the end. -/
theorem foldl_charIndices {σ : Type _} {visit : σ → Nat × Char → σ}
    {Inv : List Char → σ → Prop}
    (hvisit : ∀ done c state, Inv done state →
      Inv (done ++ [c]) (visit state (byteLen done, c)))
    {done : List Char} {state : σ} (hstart : Inv done state)
    (text : List Char) :
    Inv (done ++ text)
      ((charIndices (byteLen done) text).foldl visit state) := by
  induction text generalizing done state with
  | nil =>
    rw [append_nil]
    exact hstart
  | cons c rest ih =>
    have hnext := ih (hvisit done c state hstart)
    rw [byteLen_append, byteLen_singleton, append_assoc] at hnext
    exact hnext

/-- A literal is checked character by character, without decoding it. -/
theorem forall_mem_toList {p : Char → Prop} [DecidablePred p] {text : String}
    {chars : List Char} (htext : text = String.ofList chars)
    (hchars : chars.all (fun c => decide (p c)) = true) :
    ∀ c ∈ text.toList, p c := by
  rw [htext, String.toList_ofList]
  simpa using hchars

end Utf8Slice

end Vellum
