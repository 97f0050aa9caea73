/-
JSON values up to the order of object fields.  Sorting the fields of every
object by their names picks one value out of those that differ in nothing
else.  Numbers count as written: zeros of different sign are different.
-/
import Vellum.Library.Json

namespace Vellum

open List

namespace Json

mutual

/-- The same value, but for the order of fields. -/
def Alike : Json → Json → Prop
  | .arr left, .arr right => AlikeItems left right
  | .obj left, .obj right =>
    left.length = right.length ∧ AlikeFields left right
  | left, right => left = right

def AlikeItems : List Json → List Json → Prop
  | [], [] => True
  | x :: xs, y :: ys => Alike x y ∧ AlikeItems xs ys
  | _, _ => False

/-- Each field of the left is on the right. -/
def AlikeFields : List (String × Json) → List (String × Json) → Prop
  | [], _ => True
  | (name, value) :: rest, right =>
    (∃ other, (name, other) ∈ right ∧ Alike value other) ∧
      AlikeFields rest right

end

/-- Fields in the order of their names. -/
def byName (left right : String × Json) : Prop := left.1 ≤ right.1

instance : DecidableRel byName := fun left right =>
  inferInstanceAs (Decidable (left.1 ≤ right.1))

instance : IsTrans (String × Json) byName := ⟨fun _ _ _ => le_trans⟩

instance : Std.Total byName := ⟨fun left right => le_total left.1 right.1⟩

mutual

def sortKeys : Json → Json
  | .arr items => .arr (sortItems items)
  | .obj fields => .obj ((sortFields fields).insertionSort byName)
  | value => value

def sortItems : List Json → List Json
  | [] => []
  | item :: rest => sortKeys item :: sortItems rest

def sortFields : List (String × Json) → List (String × Json)
  | [] => []
  | (name, value) :: rest => (name, sortKeys value) :: sortFields rest

end

theorem sortItems_eq (items : List Json) :
    sortItems items = items.map sortKeys := by
  induction items with
  | nil => rfl
  | cons item rest ih => rw [sortItems, ih, map_cons]

theorem sortFields_eq (fields : List (String × Json)) :
    sortFields fields = fields.map fun field => (field.1, sortKeys field.2) := by
  induction fields with
  | nil => rfl
  | cons field rest ih => rw [sortFields, ih, map_cons]

theorem alikeItems_iff {left right : List Json} :
    AlikeItems left right ↔ List.Forall₂ Alike left right := by
  induction left generalizing right with
  | nil =>
    cases right with
    | nil => exact ⟨fun _ => .nil, fun _ => trivial⟩
    | cons => exact ⟨by rintro ⟨⟩, by rintro ⟨⟩⟩
  | cons x xs ih =>
    cases right with
    | nil => exact ⟨by rintro ⟨⟩, by rintro ⟨⟩⟩
    | cons y ys => rw [AlikeItems, ih, List.forall₂_cons]

variable {left right : List (String × Json)}

theorem alikeFields_iff :
    AlikeFields left right ↔ ∀ field ∈ left,
      ∃ other, (field.1, other) ∈ right ∧ Alike field.2 other := by
  induction left with
  | nil => exact ⟨fun _ => by rintro _ ⟨⟩, fun _ => trivial⟩
  | cons field rest ih => rw [AlikeFields, ih, forall_mem_cons]

/-- Lists of fields with different names sort to the same list when they hold
the same fields. -/
theorem insertionSort_eq_iff (hnodup : (left.map Prod.fst).Nodup) :
    left.insertionSort byName = right.insertionSort byName ↔
      left.Perm right := by
  constructor
  · intro heq
    have hleft := perm_insertionSort byName left
    rw [heq] at hleft
    exact hleft.symm.trans (perm_insertionSort byName right)
  · intro hperm
    have hsorted := (perm_insertionSort byName left).trans
      (hperm.trans (perm_insertionSort byName right).symm)
    refine hsorted.eq_of_pairwise ?_ (pairwise_insertionSort byName left)
      (pairwise_insertionSort byName right)
    intro first second hfirst hsecond hle hge
    rw [mem_insertionSort] at hfirst hsecond
    have hname : first.1 = second.1 := le_antisymm hle hge
    exact inj_on_of_nodup_map hnodup hfirst (hperm.mem_iff.mpr hsecond)
      hname

theorem perm_sortFields_iff (hnodup : (left.map Prod.fst).Nodup)
    (hsame : ∀ field ∈ left, ∀ other, (field.1, other) ∈ right →
      (sortKeys field.2 = sortKeys other ↔ Alike field.2 other)) :
    (sortFields left).Perm (sortFields right) ↔
      left.length = right.length ∧ AlikeFields left right := by
  rw [alikeFields_iff, sortFields_eq, sortFields_eq]
  constructor
  · intro hperm
    refine ⟨by simpa using hperm.length_eq, ?_⟩
    intro field hfield
    have hmem := hperm.mem_iff.mp (mem_map_of_mem hfield)
    obtain ⟨other, hother, heq⟩ := mem_map.mp hmem
    obtain ⟨hname, hvalue⟩ := Prod.mk.inj heq
    have hin : (field.1, other.2) ∈ right := by
      rw [← hname]
      exact hother
    exact ⟨other.2, hin, (hsame field hfield other.2 hin).mp hvalue.symm⟩
  · rintro ⟨hlength, hfields⟩
    apply List.Subperm.perm_of_length_le
    · apply subperm_of_subset
      · have hkeys : (left.map fun field => (field.1, sortKeys field.2)).map
            Prod.fst = left.map Prod.fst := by
          rw [map_map]
          rfl
        exact List.Nodup.of_map Prod.fst (hkeys ▸ hnodup)
      · intro entry hentry
        obtain ⟨field, hfield, rfl⟩ := mem_map.mp hentry
        obtain ⟨other, hother, halike⟩ := hfields field hfield
        rw [(hsame field hfield other hother).mpr halike]
        exact mem_map_of_mem (f := fun field : String × Json =>
          (field.1, sortKeys field.2)) hother
    · rw [length_map, length_map, hlength]

/-- Sorting picks one of the values that differ only in the order of their
fields. -/
theorem sortKeys_eq_iff {left right : Json} (hleft : left.distinct = true)
    (hright : right.distinct = true) :
    sortKeys left = sortKeys right ↔ Alike left right := by
  induction left using nestedInduction generalizing right with
  | leaf left harr hobj =>
    cases left with
    | arr items => exact absurd rfl (harr items)
    | obj fields => exact absurd rfl (hobj fields)
    | null | bool | num | str =>
      cases right <;> simp [sortKeys, Alike]
  | arr items ih =>
    cases right with
    | arr others =>
      rw [distinct_arr_iff] at hleft hright
      rw [sortKeys, sortKeys, Alike, Json.arr.injEq, sortItems_eq,
        sortItems_eq, alikeItems_iff, ← List.forall₂_eq_eq_eq,
        List.forall₂_map_left_iff, List.forall₂_map_right_iff]
      induction items generalizing others with
      | nil => cases others <;> simp
      | cons item rest ihrest =>
        cases others with
        | nil => simp
        | cons other others =>
          rw [forall_mem_cons] at hleft hright
          rw [List.forall₂_cons, List.forall₂_cons,
            ih item mem_cons_self hleft.1 hright.1,
            ihrest (fun next hnext =>
              ih next (mem_cons_of_mem _ hnext)) hleft.2 others
              hright.2]
    | null | bool | num | str | obj => simp [sortKeys, Alike]
  | obj fields ih =>
    cases right with
    | obj others =>
      rw [distinct_obj_iff] at hleft hright
      have hkeys : ((sortFields fields).map Prod.fst).Nodup := by
        rw [sortFields_eq, map_map]
        exact hleft.1
      rw [sortKeys, sortKeys, Alike, Json.obj.injEq,
        insertionSort_eq_iff hkeys, perm_sortFields_iff hleft.1]
      intro field hfield other hother
      exact ih field hfield (hleft.2 field hfield) (hright.2 _ hother)
    | null | bool | num | str | arr => simp [sortKeys, Alike]

end Json

end Vellum
