/-
The end of a list, kept as it is or with one element more in front, which
replaces the element that stood there.  Keeping the end of what was kept is
keeping the end again, so a list can be cut back and extended any number of
times.
-/
import Mathlib

namespace Vellum

universe u

variable {α : Type u} {R : α → α → Prop}

/-- `part` is the end of `whole`, or that with a replacement of the element
before it in front. -/
def KeptSuffix (R : α → α → Prop) (whole part : List α) : Prop :=
  ∃ dropped kept, whole = dropped ++ kept ∧
    (part = kept ∨ ∃ front old new, dropped = front ++ [old] ∧
      part = new :: kept ∧ R old new)

namespace KeptSuffix

theorem refl (whole : List α) : KeptSuffix R whole whole :=
  ⟨[], whole, rfl, Or.inl rfl⟩

/-- What comes after both is kept. -/
theorem append {whole part : List α} (hkept : KeptSuffix R whole part)
    (more : List α) : KeptSuffix R (whole ++ more) (part ++ more) := by
  obtain ⟨dropped, kept, rfl, hpart⟩ := hkept
  refine ⟨dropped, kept ++ more, List.append_assoc _ _ _, ?_⟩
  rcases hpart with rfl | ⟨front, old, new, hdropped, rfl, hrel⟩
  · exact Or.inl rfl
  · exact Or.inr ⟨front, old, new, hdropped, rfl, hrel⟩

/-- An end of a kept end, where the element in front may have been replaced
before. -/
theorem trans (htrans : ∀ {first second third}, R first second →
      R second third → R first third)
    {whole part last : List α} (hkept : KeptSuffix R whole part)
    (hlast : KeptSuffix R part last) : KeptSuffix R whole last := by
  obtain ⟨dropped, kept, rfl, hpart⟩ := hkept
  obtain ⟨dropped', kept', hsplit, hlast⟩ := hlast
  rcases hpart with rfl | ⟨front, old, new, rfl, rfl, hrel⟩
  · refine ⟨dropped ++ dropped', kept', ?_, ?_⟩
    · rw [hsplit, List.append_assoc]
    · rcases hlast with rfl | ⟨front, old, new, rfl, rfl, hrel⟩
      · exact Or.inl rfl
      · exact Or.inr ⟨dropped ++ front, old, new,
          (List.append_assoc _ _ _).symm, rfl, hrel⟩
  · cases dropped' with
    | nil =>
      -- all of it is kept, with the replacement in front
      rw [List.nil_append] at hsplit
      subst hsplit
      rcases hlast with rfl | ⟨front', old', new', hnil, -⟩
      · exact ⟨front ++ [old], kept, rfl,
          Or.inr ⟨front, old, new, rfl, rfl, hrel⟩⟩
      · exact absurd hnil (by simp)
    | cons head dropped' =>
      obtain ⟨rfl, rfl⟩ := List.cons.inj hsplit
      refine ⟨front ++ [old] ++ dropped', kept', by simp, ?_⟩
      rcases hlast with rfl | ⟨front', old', new', hdropped, rfl, hrel'⟩
      · exact Or.inl rfl
      · cases front' with
        | nil =>
          -- the replacement is replaced again
          obtain ⟨rfl, rfl⟩ := List.cons.inj hdropped
          exact Or.inr ⟨front, old, new', by simp, rfl,
            htrans hrel hrel'⟩
        | cons head' front' =>
          obtain ⟨rfl, rfl⟩ := List.cons.inj hdropped
          exact Or.inr ⟨front ++ [old] ++ front', old', new',
            by simp, rfl, hrel'⟩

end KeptSuffix

end Vellum
