/-
Incremental decoders.  A cutter takes one piece off the front of a buffer, or
answers that the buffer does not yet hold a whole piece.  What it has cut it
would also have cut from a longer buffer; that alone makes the result of
feeding an input independent of how the input is divided into chunks.
-/
import Mathlib

namespace Vellum

universe u v w

/-- One step of a decoder with control state `S` over symbols `B`, yielding
pieces in `O`. -/
structure Cutter (S : Type u) (B : Type v) (O : Type w) where
  cut : S → List B → Option (O × S × List B)
  /-- A cut consumes at least one symbol. -/
  shorter : ∀ {state next : S} {input rest : List B} {piece : O},
    cut state input = some (piece, next, rest) → rest.length < input.length
  /-- A cut looks at nothing that a longer buffer could change. -/
  extend : ∀ {state next : S} {input rest : List B} {piece : O},
    cut state input = some (piece, next, rest) →
      ∀ more, cut state (input ++ more) = some (piece, next, rest ++ more)

namespace Cutter

variable {S : Type u} {B : Type v} {O : Type w} (cutter : Cutter S B O)

/-- Cut pieces until the buffer holds no whole piece: the pieces, the control
state and the symbols left over. -/
def drain (state : S) (input : List B) : List O × S × List B :=
  match _hcut : cutter.cut state input with
  | none => ([], state, input)
  | some (piece, next, rest) =>
    let tail := drain next rest
    (piece :: tail.1, tail.2)
termination_by input.length
decreasing_by exact cutter.shorter _hcut

theorem drain_of_cut_none {state : S} {input : List B}
    (hcut : cutter.cut state input = none) :
    cutter.drain state input = ([], state, input) := by
  rw [drain]
  split
  · rfl
  · rename_i hsome
    rw [hcut] at hsome
    exact absurd hsome (by simp)

theorem drain_of_cut_some {state next : S} {input rest : List B} {piece : O}
    (hcut : cutter.cut state input = some (piece, next, rest)) :
    cutter.drain state input =
      (piece :: (cutter.drain next rest).1, (cutter.drain next rest).2) := by
  rw [drain]
  split
  · rename_i hnone
    rw [hcut] at hnone
    exact absurd hnone (by simp)
  · rename_i hsome
    rw [hcut] at hsome
    simp only [Option.some.injEq, Prod.mk.injEq] at hsome
    obtain ⟨rfl, rfl, rfl⟩ := hsome
    rfl

/-- The induction of a drain: either nothing can be cut, or one piece is cut
and the rest is drained. -/
theorem drain_induction {motive : S → List B → Prop}
    (stuck : ∀ state input, cutter.cut state input = none →
      motive state input)
    (step : ∀ state input piece next rest,
      cutter.cut state input = some (piece, next, rest) →
        motive next rest → motive state input)
    (state : S) (input : List B) : motive state input := by
  induction hlen : input.length using Nat.strongRecOn
    generalizing state input with
  | ind len ih =>
    cases hcut : cutter.cut state input with
    | none => exact stuck state input hcut
    | some result =>
      obtain ⟨piece, next, rest⟩ := result
      have hshort := cutter.shorter hcut
      exact step state input piece next rest hcut
        (ih rest.length (hlen ▸ hshort) next rest rfl)

theorem cut_drain (state : S) (input : List B) :
    cutter.cut (cutter.drain state input).2.1
      (cutter.drain state input).2.2 = none := by
  induction state, input using cutter.drain_induction with
  | stuck state input hcut =>
    rw [cutter.drain_of_cut_none hcut]
    exact hcut
  | step state input piece next rest hcut ih =>
    rw [cutter.drain_of_cut_some hcut]
    exact ih

/-- Draining a longer buffer is draining its front, then the left-over
symbols together with the rest. -/
theorem drain_append (state : S) (input more : List B) :
    cutter.drain state (input ++ more) =
      ((cutter.drain state input).1 ++
        (cutter.drain (cutter.drain state input).2.1
          ((cutter.drain state input).2.2 ++ more)).1,
        (cutter.drain (cutter.drain state input).2.1
          ((cutter.drain state input).2.2 ++ more)).2) := by
  induction state, input using cutter.drain_induction with
  | stuck state input hcut =>
    rw [cutter.drain_of_cut_none hcut]
    rfl
  | step state input piece next rest hcut ih =>
    rw [cutter.drain_of_cut_some (cutter.extend hcut more),
      cutter.drain_of_cut_some hcut, ih]
    rfl

/-- Feed the chunks one after the other, each behind what the last one left
over. -/
def feed (state : S) (pending : List B) :
    List (List B) → List O × S × List B
  | [] => ([], state, pending)
  | chunk :: chunks =>
    let first := cutter.drain state (pending ++ chunk)
    let rest := feed first.2.1 first.2.2 chunks
    (first.1 ++ rest.1, rest.2)

theorem feed_eq_drain {state : S} {pending : List B}
    (hpending : cutter.cut state pending = none) (chunks : List (List B)) :
    cutter.feed state pending chunks =
      cutter.drain state (pending ++ chunks.flatten) := by
  induction chunks generalizing state pending with
  | nil =>
    rw [List.flatten_nil, List.append_nil,
      cutter.drain_of_cut_none hpending]
    rfl
  | cons chunk chunks ih =>
    rw [List.flatten_cons, ← List.append_assoc, cutter.drain_append,
      feed, ih (cutter.cut_drain state (pending ++ chunk))]

end Cutter

end Vellum
