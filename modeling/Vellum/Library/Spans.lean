/-
Spans of positions in a list.  Spans that overlap are merged, which leaves
spans that follow each other, each of them made of the ones it covers.
-/
import Mathlib

namespace Vellum

open List

universe u

/-- The positions from `start` up to, but without, `stop`. -/
structure Span where
  start : Nat
  stop : Nat

namespace Span

/-- A span with something in it, that ends within the first `size`
positions. -/
structure Within (size : Nat) (span : Span) : Prop where
  nonempty : span.start < span.stop
  bound : span.stop ≤ size

def Covers (outer inner : Span) : Prop :=
  outer.start ≤ inner.start ∧ inner.stop ≤ outer.stop

/-- Add a span behind the last of the merged ones, or to it. -/
def mergeInto (merged : List Span) (span : Span) : List Span :=
  match merged.getLast? with
  | some last =>
    if span.start < last.stop then
      merged.dropLast ++ [⟨last.start, max last.stop span.stop⟩]
    else merged ++ [span]
  | none => [span]

/-- Merge spans that are sorted by their starts. -/
def merge (spans : List Span) : List Span := spans.foldl mergeInto []

/-- The spans merged behind `current`, the last of the merged ones. -/
def mergeFrom (current : Span) : List Span → List Span
  | [] => [current]
  | span :: rest =>
    if span.start < current.stop then
      mergeFrom ⟨current.start, max current.stop span.stop⟩ rest
    else current :: mergeFrom span rest

theorem mergeInto_concat (done : List Span) (current span : Span) :
    mergeInto (done ++ [current]) span =
      if span.start < current.stop then
        done ++ [⟨current.start, max current.stop span.stop⟩]
      else (done ++ [current]) ++ [span] := by
  rw [mergeInto, getLast?_concat, dropLast_concat]

theorem foldl_mergeInto (done : List Span) (current : Span)
    (spans : List Span) :
    spans.foldl mergeInto (done ++ [current]) =
      done ++ mergeFrom current spans := by
  induction spans generalizing done current with
  | nil => rfl
  | cons span rest ih =>
    rw [foldl_cons, mergeInto_concat, mergeFrom]
    split
    · exact ih done _
    · rw [ih (done ++ [current]) span, append_assoc]
      rfl

theorem merge_cons (span : Span) (rest : List Span) :
    merge (span :: rest) = mergeFrom span rest := foldl_mergeInto [] span rest

variable {size : Nat} {current : Span} {spans : List Span}

theorem le_start_of_mem_mergeFrom {lower : Nat}
    (hcurrent : lower ≤ current.start)
    (hspans : ∀ span ∈ spans, lower ≤ span.start) :
    ∀ merged ∈ mergeFrom current spans, lower ≤ merged.start := by
  induction spans generalizing current with
  | nil =>
    intro merged hmem
    rw [mem_singleton.mp hmem]
    exact hcurrent
  | cons span rest ih =>
    obtain ⟨hspan, hrest⟩ := forall_mem_cons.mp hspans
    rw [mergeFrom]
    split
    · exact ih hcurrent hrest
    · exact forall_mem_cons.mpr ⟨hcurrent, ih hspan hrest⟩

theorem mergeFrom_pairwise
    (hsorted : (current :: spans).Pairwise fun a b => a.start ≤ b.start) :
    (mergeFrom current spans).Pairwise fun a b => a.stop ≤ b.start := by
  induction spans generalizing current with
  | nil => exact pairwise_singleton _ _
  | cons span rest ih =>
    obtain ⟨hcurrent, htail⟩ := pairwise_cons.mp hsorted
    obtain ⟨hspan, hrest⟩ := pairwise_cons.mp htail
    rw [mergeFrom]
    split
    · apply ih
      exact pairwise_cons.mpr
        ⟨fun other hother => hcurrent other (mem_cons_of_mem _ hother),
          hrest⟩
    · rename_i hgap
      refine pairwise_cons.mpr ⟨?_, ih htail⟩
      intro merged hmem
      have hlower := le_start_of_mem_mergeFrom (Nat.le_refl span.start) hspan
        merged hmem
      omega

theorem mergeFrom_within (hcurrent : current.Within size)
    (hspans : ∀ span ∈ spans, span.Within size) :
    ∀ merged ∈ mergeFrom current spans, merged.Within size := by
  induction spans generalizing current with
  | nil =>
    intro merged hmem
    rw [mem_singleton.mp hmem]
    exact hcurrent
  | cons span rest ih =>
    obtain ⟨hspan, hrest⟩ := forall_mem_cons.mp hspans
    rw [mergeFrom]
    split
    · refine ih ⟨?_, ?_⟩ hrest
      · exact lt_of_lt_of_le hcurrent.nonempty (le_max_left _ _)
      · exact max_le hcurrent.bound hspan.bound
    · exact forall_mem_cons.mpr ⟨hcurrent, ih hspan hrest⟩

theorem mergeFrom_covers
    (hsorted : (current :: spans).Pairwise fun a b => a.start ≤ b.start) :
    ∀ span ∈ current :: spans, ∃ merged ∈ mergeFrom current spans,
      merged.Covers span := by
  induction spans generalizing current with
  | nil =>
    intro span hspan
    exact ⟨current, mem_cons_self,
      (mem_singleton.mp hspan) ▸ ⟨Nat.le_refl _, Nat.le_refl _⟩⟩
  | cons next rest ih =>
    obtain ⟨hcurrent, htail⟩ := pairwise_cons.mp hsorted
    have hrest := (pairwise_cons.mp htail).2
    intro span hspan
    rw [mergeFrom]
    split
    · have hjoined : (⟨current.start, max current.stop next.stop⟩ ::
          rest : List Span).Pairwise fun a b => a.start ≤ b.start :=
        pairwise_cons.mpr
          ⟨fun other hother => hcurrent other (mem_cons_of_mem _ hother),
            hrest⟩
      have hfirst := hcurrent next mem_cons_self
      obtain ⟨merged, hmem, hstart, hstop⟩ :=
        ih hjoined _ mem_cons_self
      have hleft := le_max_left current.stop next.stop
      have hright := le_max_right current.stop next.stop
      rcases mem_cons.mp hspan with rfl | hspan
      · exact ⟨merged, hmem, hstart, hleft.trans hstop⟩
      · rcases mem_cons.mp hspan with rfl | hspan
        · exact ⟨merged, hmem, hstart.trans hfirst, hright.trans hstop⟩
        · exact ih hjoined span (mem_cons_of_mem _ hspan)
    · rcases mem_cons.mp hspan with rfl | hspan
      · exact ⟨span, mem_cons_self, Nat.le_refl _, Nat.le_refl _⟩
      · obtain ⟨merged, hmem, hcovers⟩ := ih htail span hspan
        exact ⟨merged, mem_cons_of_mem _ hmem, hcovers⟩

/-- Spans of a list of `size` that follow each other. -/
structure Laid (size : Nat) (spans : List Span) : Prop where
  within : ∀ span ∈ spans, span.Within size
  pairwise : spans.Pairwise fun a b => a.stop ≤ b.start

theorem laid_merge (hsorted : spans.Pairwise fun a b => a.start ≤ b.start)
    (hspans : ∀ span ∈ spans, span.Within size) : Laid size (merge spans) := by
  cases spans with
  | nil => exact ⟨fun _ hmem => absurd hmem not_mem_nil, List.Pairwise.nil⟩
  | cons span rest =>
    rw [merge_cons]
    refine ⟨mergeFrom_within (hspans span mem_cons_self) ?_,
      mergeFrom_pairwise hsorted⟩
    exact fun other hother => hspans other (mem_cons_of_mem _ hother)

theorem merge_covers (hsorted : spans.Pairwise fun a b => a.start ≤ b.start)
    {span : Span} (hspan : span ∈ spans) :
    ∃ merged ∈ merge spans, merged.Covers span := by
  cases spans with
  | nil => exact absurd hspan not_mem_nil
  | cons first rest =>
    rw [merge_cons]
    exact mergeFrom_covers hsorted span hspan

/-- A cut in front of position `place` goes through one of the spans. -/
def Cut (spans : List Span) (place : Nat) : Prop :=
  ∃ span ∈ spans, span.start < place ∧ place < span.stop

/-- Move a place that cuts a span to the start of that span. -/
def moveBack (spans : List Span) (place : Nat) : Nat :=
  spans.foldl (fun place span =>
    if span.start < place ∧ place < span.stop then span.start else place) place

theorem moveBack_le (spans : List Span) (place : Nat) :
    moveBack spans place ≤ place := by
  induction spans generalizing place with
  | nil => exact Nat.le_refl place
  | cons span rest ih =>
    rw [moveBack, foldl_cons]
    split
    · rename_i hcut
      exact (ih span.start).trans hcut.1.le
    · exact ih place

theorem le_moveBack {lower place : Nat} (hplace : lower ≤ place)
    (hspans : ∀ span ∈ spans, lower ≤ span.start) :
    lower ≤ moveBack spans place := by
  induction spans generalizing place with
  | nil => exact hplace
  | cons span rest ih =>
    have hrest : ∀ other ∈ rest, lower ≤ other.start :=
      fun other hother => hspans other (mem_cons_of_mem _ hother)
    rw [moveBack, foldl_cons]
    split
    · exact ih (hspans span mem_cons_self) hrest
    · exact ih hplace hrest

/-- Places in front of all spans stay where they are. -/
theorem moveBack_of_le {place : Nat}
    (hspans : ∀ span ∈ spans, place ≤ span.start) :
    moveBack spans place = place := by
  induction spans with
  | nil => rfl
  | cons span rest ih =>
    have hfirst := hspans span mem_cons_self
    rw [moveBack, foldl_cons, if_neg (by omega)]
    exact ih fun other hother => hspans other (mem_cons_of_mem _ hother)

theorem not_cut_moveBack (hlaid : Laid size spans) (place : Nat) :
    ¬ Cut spans (moveBack spans place) := by
  induction spans with
  | nil =>
    rintro ⟨span, hmem, -⟩
    exact not_mem_nil hmem
  | cons span rest ih =>
    obtain ⟨hnext, hrest⟩ := pairwise_cons.mp hlaid.pairwise
    have htail : Laid size rest :=
      ⟨fun other hother => hlaid.within other (mem_cons_of_mem _ hother),
        hrest⟩
    have hnonempty := (hlaid.within span mem_cons_self).nonempty
    rw [moveBack, foldl_cons]
    split
    · rename_i hcut
      have hstays : moveBack rest span.start = span.start :=
        moveBack_of_le fun other hother => by
          have := hnext other hother
          omega
      rw [moveBack] at hstays
      rw [hstays]
      rintro ⟨other, hother, hbefore, hbehind⟩
      rcases mem_cons.mp hother with rfl | hother
      · exact Nat.lt_irrefl _ hbefore
      · have := hnext other hother
        omega
    · rename_i hwhole
      rintro ⟨other, hother, hbefore, hbehind⟩
      rcases mem_cons.mp hother with rfl | hother
      · have hback : moveBack rest place ≤ place := moveBack_le rest place
        have hside : place ≤ other.start ∨ other.stop ≤ place := by omega
        rcases hside with hfront | hbehindAll
        · exact absurd (hback.trans hfront) (Nat.not_le.mpr hbefore)
        · have hlower : other.stop ≤ moveBack rest place :=
            le_moveBack hbehindAll hnext
          exact absurd hlower (Nat.not_le.mpr hbehind)
      · exact ih htail ⟨other, hother, hbefore, hbehind⟩

end Span

end Vellum
