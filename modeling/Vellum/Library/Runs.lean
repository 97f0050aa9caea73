/-
Runs of a list: the stretches of neighbours that satisfy a predicate.  Each run
has one last element, so the list of these says how many runs there are, and
where the last one ends.
-/
import Mathlib

namespace Vellum

open List

universe u

variable {α : Type u}

/-- The last element of every run. -/
def runEnds (p : α → Bool) : List α → List α
  | [] => []
  | x :: rest =>
    if p x && !rest.head?.any p then x :: runEnds p rest
    else runEnds p rest

/-- What satisfies the predicate stands side by side. -/
def OneRun (p : α → Bool) (xs : List α) : Prop :=
  ∃ before run after, xs = before ++ run ++ after ∧
    (∀ x ∈ run, p x) ∧ ∀ x ∈ before ++ after, ¬ p x

variable {p : α → Bool}

variable {x : α} {xs rest : List α}

theorem runEnds_cons_of_end (hx : p x) (hnext : rest.head?.any p = false) :
    runEnds p (x :: rest) = x :: runEnds p rest := by
  simp [runEnds, hx, hnext]

theorem runEnds_cons_of_not (hx : ¬ p x) :
    runEnds p (x :: rest) = runEnds p rest := by
  simp [runEnds, hx]

theorem runEnds_cons_of_next (hnext : rest.head?.any p = true) :
    runEnds p (x :: rest) = runEnds p rest := by
  simp [runEnds, hnext]

theorem mem_of_head?_any (hnext : rest.head?.any p = true) :
    ∃ x ∈ rest, p x := by
  cases rest with
  | nil => cases hnext
  | cons x rest => exact ⟨x, mem_cons_self, hnext⟩

theorem getLast?_runEnds (xs : List α) :
    (runEnds p xs).getLast? = (xs.filter p).getLast? := by
  induction xs with
  | nil => rfl
  | cons x rest ih =>
    by_cases hx : p x
    · rw [filter_cons_of_pos hx]
      cases hnext : rest.head?.any p with
      | false =>
        rw [runEnds_cons_of_end hx hnext, getLast?_cons, ih,
          getLast?_cons]
      | true =>
        obtain ⟨y, hy, hpy⟩ := mem_of_head?_any hnext
        have hne : rest.filter p ≠ [] :=
          ne_nil_of_mem (mem_filter.mpr ⟨hy, hpy⟩)
        rw [runEnds_cons_of_next hnext, ih, getLast?_cons,
          getLast?_eq_getLast_of_ne_nil hne]
        rfl
    · rw [runEnds_cons_of_not hx, filter_cons_of_neg hx, ih]

theorem runEnds_eq_nil_iff : runEnds p xs = [] ↔ ∀ x ∈ xs, ¬ p x := by
  rw [← getLast?_eq_none_iff, getLast?_runEnds,
    getLast?_eq_none_iff, filter_eq_nil_iff]

theorem oneRun_of_none (hnone : ∀ x ∈ xs, ¬ p x) : OneRun p xs :=
  ⟨xs, [], [], by simp, by simp, by simpa using hnone⟩

theorem oneRun_cons_of_not (hx : ¬ p x) :
    OneRun p (x :: rest) ↔ OneRun p rest := by
  constructor
  · rintro ⟨before, run, after, hsplit, hrun, hout⟩
    cases before with
    | cons y before =>
      obtain ⟨rfl, hrest⟩ := List.cons.inj hsplit
      refine ⟨before, run, after, hrest, hrun, ?_⟩
      exact fun y hy => hout y (mem_cons_of_mem _ hy)
    | nil =>
      cases run with
      | cons y run =>
        obtain ⟨rfl, -⟩ := List.cons.inj hsplit
        exact absurd (hrun _ mem_cons_self) hx
      | nil =>
        have hafter : x :: rest = after := hsplit
        apply oneRun_of_none
        intro y hy
        exact hout y (hafter ▸ mem_cons_of_mem _ hy)
  · rintro ⟨before, run, after, rfl, hrun, hout⟩
    exact ⟨x :: before, run, after, rfl, hrun, forall_mem_cons.mpr ⟨hx, hout⟩⟩

/-- The list is a run and then nothing more of it. -/
def RunThenNone (p : α → Bool) (xs : List α) : Prop :=
  ∃ run after, xs = run ++ after ∧ (∀ x ∈ run, p x) ∧ ∀ x ∈ after, ¬ p x

theorem oneRun_cons_of_pos (hx : p x) :
    OneRun p (x :: rest) ↔ RunThenNone p rest := by
  constructor
  · rintro ⟨before, run, after, hsplit, hrun, hout⟩
    cases before with
    | cons y before =>
      obtain ⟨rfl, -⟩ := List.cons.inj hsplit
      exact absurd hx (hout _ mem_cons_self)
    | nil =>
      cases run with
      | cons y run =>
        obtain ⟨rfl, hrest⟩ := List.cons.inj hsplit
        refine ⟨run, after, hrest, ?_, hout⟩
        exact fun z hz => hrun z (mem_cons_of_mem _ hz)
      | nil =>
        have hafter : x :: rest = after := hsplit
        exact absurd hx (hout x (hafter ▸ mem_cons_self))
  · rintro ⟨run, after, rfl, hrun, hout⟩
    exact ⟨[], x :: run, after, rfl, forall_mem_cons.mpr ⟨hx, hrun⟩, hout⟩

theorem runThenNone_cons_of_pos (hx : p x) :
    RunThenNone p (x :: rest) ↔ RunThenNone p rest := by
  constructor
  · rintro ⟨run, after, hsplit, hrun, hout⟩
    cases run with
    | nil =>
      have hafter : x :: rest = after := hsplit
      exact absurd hx (hout x (hafter ▸ mem_cons_self))
    | cons y run =>
      obtain ⟨rfl, hrest⟩ := List.cons.inj hsplit
      refine ⟨run, after, hrest, ?_, hout⟩
      exact fun z hz => hrun z (mem_cons_of_mem _ hz)
  · rintro ⟨run, after, rfl, hrun, hout⟩
    exact ⟨x :: run, after, rfl, forall_mem_cons.mpr ⟨hx, hrun⟩, hout⟩

theorem runThenNone_iff_of_end (hnext : rest.head?.any p = false) :
    RunThenNone p rest ↔ ∀ x ∈ rest, ¬ p x := by
  constructor
  · rintro ⟨run, after, rfl, hrun, hout⟩
    cases run with
    | nil => exact hout
    | cons y run =>
      have hy := hrun y mem_cons_self
      simp [hy] at hnext
  · exact fun hnone => ⟨[], rest, rfl, by simp, hnone⟩

theorem length_runEnds_le_one_iff (xs : List α) :
    (runEnds p xs).length ≤ 1 ↔ OneRun p xs := by
  induction xs with
  | nil => exact iff_of_true (Nat.zero_le 1) (oneRun_of_none (by simp))
  | cons x rest ih =>
    by_cases hx : p x
    · rw [oneRun_cons_of_pos hx]
      cases hnext : rest.head?.any p with
      | false =>
        rw [runThenNone_iff_of_end hnext, ← runEnds_eq_nil_iff,
          runEnds_cons_of_end hx hnext, ← length_eq_zero_iff,
          length_cons]
        omega
      | true =>
        rw [runEnds_cons_of_next hnext, ih]
        cases rest with
        | nil => cases hnext
        | cons y rest =>
          have hy : p y := hnext
          rw [oneRun_cons_of_pos hy, runThenNone_cons_of_pos hy]
    · rw [runEnds_cons_of_not hx, ih, oneRun_cons_of_not hx]

theorem runEnds_eq_filter {q : α → Bool}
    (hends : ∀ before x after, xs = before ++ x :: after →
      q x = (p x && !after.head?.any p)) : runEnds p xs = xs.filter q := by
  induction xs with
  | nil => rfl
  | cons x rest ih =>
    have hx := hends [] x rest rfl
    have hrest := ih fun before y after hsplit =>
      hends (x :: before) y after (congrArg (x :: ·) hsplit)
    rw [runEnds, filter_cons, hx, hrest]

end Vellum
