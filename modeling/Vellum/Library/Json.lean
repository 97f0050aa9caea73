/-
JSON values with ordered object fields, and the accessors a program reads them
through.  An object keeps its fields in insertion order; a lookup takes the
first field with the key.  Every accessor is total and answers `none` on a
value of another shape.
-/
import Mathlib

namespace Vellum

open List Option

/-- A JSON number: an integer, or a double given by its bit pattern. -/
inductive JsonNumber where
  | int (value : Int)
  | float (bits : UInt64)
deriving Repr, DecidableEq

inductive Json where
  | null
  | bool (value : Bool)
  | num (value : JsonNumber)
  | str (value : String)
  | arr (items : List Json)
  | obj (fields : List (String × Json))
deriving Repr, Inhabited

namespace Json

mutual

def decEqJson : (left right : Json) → Decidable (left = right)
  | .null, .null => isTrue rfl
  | .bool a, .bool b => decidable_of_iff (a = b) (by simp)
  | .num a, .num b => decidable_of_iff (a = b) (by simp)
  | .str a, .str b => decidable_of_iff (a = b) (by simp)
  | .arr a, .arr b =>
    match decEqItems a b with
    | isTrue heq => isTrue (by rw [heq])
    | isFalse hne => isFalse fun heq => hne (Json.arr.inj heq)
  | .obj a, .obj b =>
    match decEqFields a b with
    | isTrue heq => isTrue (by rw [heq])
    | isFalse hne => isFalse fun heq => hne (Json.obj.inj heq)
  | .null, .bool _ | .null, .num _ | .null, .str _ | .null, .arr _
  | .null, .obj _ | .bool _, .null | .bool _, .num _ | .bool _, .str _
  | .bool _, .arr _ | .bool _, .obj _ | .num _, .null | .num _, .bool _
  | .num _, .str _ | .num _, .arr _ | .num _, .obj _ | .str _, .null
  | .str _, .bool _ | .str _, .num _ | .str _, .arr _ | .str _, .obj _
  | .arr _, .null | .arr _, .bool _ | .arr _, .num _ | .arr _, .str _
  | .arr _, .obj _ | .obj _, .null | .obj _, .bool _ | .obj _, .num _
  | .obj _, .str _ | .obj _, .arr _ => isFalse nofun

def decEqItems : (left right : List Json) → Decidable (left = right)
  | [], [] => isTrue rfl
  | [], _ :: _ | _ :: _, [] => isFalse nofun
  | x :: xs, y :: ys =>
    match decEqJson x y, decEqItems xs ys with
    | isTrue hhead, isTrue htail => isTrue (by rw [hhead, htail])
    | isFalse hhead, _ => isFalse fun heq => hhead (List.cons.inj heq).1
    | _, isFalse htail => isFalse fun heq => htail (List.cons.inj heq).2

def decEqFields :
    (left right : List (String × Json)) → Decidable (left = right)
  | [], [] => isTrue rfl
  | [], _ :: _ | _ :: _, [] => isFalse nofun
  | (k, x) :: xs, (l, y) :: ys =>
    match instDecidableEqString k l, decEqJson x y, decEqFields xs ys with
    | isTrue hkey, isTrue hhead, isTrue htail =>
      isTrue (by rw [hkey, hhead, htail])
    | isFalse hkey, _, _ =>
      isFalse fun heq => hkey (Prod.mk.inj (List.cons.inj heq).1).1
    | _, isFalse hhead, _ =>
      isFalse fun heq => hhead (Prod.mk.inj (List.cons.inj heq).1).2
    | _, _, isFalse htail => isFalse fun heq => htail (List.cons.inj heq).2

end

instance : DecidableEq Json := decEqJson

/-- Induction on a value: an array from its items, an object from its
fields. -/
@[elab_as_elim]
theorem nestedInduction {motive : Json → Prop}
    (leaf : ∀ value, (∀ items, value ≠ arr items) →
      (∀ fields, value ≠ obj fields) → motive value)
    (arr : ∀ items : List Json, (∀ item ∈ items, motive item) →
      motive (arr items))
    (obj : ∀ fields : List (String × Json),
      (∀ field ∈ fields, motive field.2) → motive (obj fields))
    (value : Json) : motive value :=
  @Json.rec motive (fun items => ∀ item ∈ items, motive item)
    (fun fields => ∀ field ∈ fields, motive field.2)
    (fun field => motive field.2)
    (leaf _ nofun nofun) (fun _ => leaf _ nofun nofun)
    (fun _ => leaf _ nofun nofun) (fun _ => leaf _ nofun nofun) arr obj
    nofun (fun _ _ hitem hitems => forall_mem_cons.mpr ⟨hitem, hitems⟩)
    nofun (fun _ _ hfield hfields => forall_mem_cons.mpr ⟨hfield, hfields⟩)
    (fun _ _ hvalue => hvalue) value

/-- A string or `null`. -/
def ofOption : Option String → Json
  | none => .null
  | some text => .str text

/-- The field of an object. -/
def get (name : String) : Json → Option Json
  | .obj fields => (fields.find? fun field => field.1 = name).map Prod.snd
  | _ => none

variable (name : String) {fields : List (String × Json)} (key : String)
  (change : Json → Json) (value : Json)

theorem get_cons (rest : List (String × Json)) (key : String) :
    (obj ((name, value) :: rest)).get key =
      if name = key then some value else (obj rest).get key := by
  by_cases hname : name = key
  · simp [get, hname]
  · simp [get, hname]

def asStr : Json → Option String
  | .str text => some text
  | _ => none

/-- The number as a signed 64-bit integer. -/
def asI64 : Json → Option Int
  | .num (.int value) =>
    if -(2 ^ 63) ≤ value ∧ value < 2 ^ 63 then some value else none
  | _ => none

/-- An array index of a JSON pointer: decimal digits without a leading zero. -/
def pointerIndex (token : String) : Option Nat :=
  match token.toList with
  | [] => none
  | ['0'] => some 0
  | '0' :: _ => none
  | digits =>
    if digits.all Char.isDigit then
      some (digits.foldl (fun acc c => 10 * acc + (c.toNat - 48)) 0)
    else none

/-- Follow the tokens of a JSON pointer. -/
def pointer : List String → Json → Option Json
  | [], value => some value
  | token :: rest, .obj fields =>
    ((Json.obj fields).get token).bind (pointer rest)
  | token :: rest, .arr items =>
    ((pointerIndex token).bind fun i => items[i]?).bind (pointer rest)
  | _ :: _, _ => none

/-- Set the field of an object: in place, or behind the others. -/
def insertField (name : String) (value : Json) :
    List (String × Json) → List (String × Json)
  | [] => [(name, value)]
  | field :: rest =>
    if field.1 = name then (name, value) :: rest
    else field :: insertField name value rest

theorem get_insertField (fields : List (String × Json)) :
    (obj (insertField name value fields)).get key =
      if key = name then some value else (obj fields).get key := by
  induction fields with
  | nil =>
    by_cases hkey : key = name
    · simp [insertField, get, hkey]
    · simp [insertField, get, hkey, Ne.symm hkey]
  | cons field rest ih =>
    rw [insertField]
    split
    · rename_i heq
      by_cases hkey : key = name
      · simp [get, hkey]
      · simp [get, heq, hkey, Ne.symm hkey]
    · rename_i hne
      by_cases hfield : field.1 = key
      · have hkey : ¬ key = name := fun h => hne (hfield.trans h)
        simp [get, hfield, hkey]
      · simp only [get, find?_cons, hfield, decide_false] at ih ⊢
        exact ih

/-- Change the field of an object where it stands, as through `get_mut`. -/
def modify (name : String) (change : Json → Json) : Json → Json
  | .obj fields =>
    match (Json.obj fields).get name with
    | some value => .obj (insertField name (change value) fields)
    | none => .obj fields
  | value => value

theorem get_modify :
    (value.modify name change).get key =
      if key = name then (value.get key).map change else value.get key := by
  cases value with
  | obj fields =>
    rw [modify]
    by_cases hkey : key = name
    · subst hkey
      rw [if_pos rfl]
      split
      · rename_i value hget
        rw [get_insertField, if_pos rfl, hget]
        rfl
      · rename_i hget
        rw [hget]
        rfl
    · rw [if_neg hkey]
      split
      · rw [get_insertField, if_neg hkey]
      · rfl
  | null | bool | num | str | arr => split <;> rfl

theorem map_fst_insertField {name : String} {old : Json}
    (hget : (obj fields).get name = some old) (value : Json) :
    (insertField name value fields).map Prod.fst = fields.map Prod.fst := by
  induction fields with
  | nil => cases hget
  | cons field rest ih =>
    rw [insertField]
    split
    · rename_i hname
      rw [map_cons, map_cons, hname]
    · rename_i hname
      rw [get_cons, if_neg hname] at hget
      rw [map_cons, map_cons, ih hget]

theorem insertField_of_get_none {name : String}
    (hget : (obj fields).get name = none) (value : Json) :
    insertField name value fields = fields ++ [(name, value)] := by
  induction fields with
  | nil => rfl
  | cons field rest ih =>
    rw [get_cons] at hget
    split at hget
    · cases hget
    · rename_i hname
      rw [insertField, if_neg hname, ih hget, cons_append]

theorem insertField_of_get {name : String} {value : Json}
    (hget : (obj fields).get name = some value) :
    insertField name value fields = fields := by
  induction fields with
  | nil => cases hget
  | cons field rest ih =>
    rw [get_cons] at hget
    rw [insertField]
    split at hget
    · rename_i hname
      rw [if_pos hname, ← hname, ← some.inj hget]
    · rename_i hname
      rw [if_neg hname, ih hget]

theorem get_eq_none_iff {name : String} :
    (obj fields).get name = none ↔ name ∉ fields.map Prod.fst := by
  induction fields with
  | nil => simp [get]
  | cons field rest ih =>
    rw [get_cons, map_cons, mem_cons, not_or, ← ih]
    by_cases hname : field.1 = name
    · simp [hname]
    · simp [hname, Ne.symm hname]

theorem nodup_insertField (hnodup : (fields.map Prod.fst).Nodup) (name : String)
    (value : Json) : ((insertField name value fields).map Prod.fst).Nodup := by
  cases hget : (obj fields).get name with
  | none =>
    have habsent := get_eq_none_iff.mp hget
    rw [insertField_of_get_none hget, map_append]
    exact hnodup.append (nodup_singleton name)
      (by simpa using habsent)
  | some old =>
    rw [map_fst_insertField hget]
    exact hnodup

theorem modify_obj (fields : List (String × Json)) :
    ∃ changed, (obj fields).modify name change = obj changed ∧
      changed.map Prod.fst = fields.map Prod.fst := by
  rw [modify]
  split
  · rename_i value hget
    exact ⟨_, rfl, map_fst_insertField hget _⟩
  · exact ⟨fields, rfl, rfl⟩

theorem modify_eq_self_iff :
    value.modify name change = value ↔
      ∀ field, value.get name = some field → change field = field := by
  constructor
  · intro heq field hfield
    have hget := get_modify name name change value
    rw [heq, if_pos rfl, hfield, map_some] at hget
    exact (some.inj hget).symm
  · intro hfixed
    cases value with
    | obj fields =>
      rw [modify]
      split
      · rename_i field hfield
        rw [hfixed field hfield, insertField_of_get hfield]
      · rfl
    | null | bool | num | str | arr => rfl

/-- Take a field out of an object; the last field moves to its place. -/
def removeField (name : String) (fields : List (String × Json)) :
    List (String × Json) :=
  match fields.findIdx? (fun field => field.1 = name), fields.getLast? with
  | some i, some last =>
    if i + 1 = fields.length then fields.dropLast
    else (fields.set i last).dropLast
  | _, _ => fields

theorem removeField_append {front : List (String × Json)}
    (hfront : ∀ field ∈ front, field.1 ≠ name) (rest : List (String × Json)) :
    removeField name (front ++ (name, value) :: rest) =
      front ++ (match rest.getLast? with
        | some last => last :: rest.dropLast
        | none => []) := by
  have hindex : (front ++ (name, value) :: rest).findIdx?
      (fun field => field.1 = name) = some front.length := by
    rw [findIdx?_append, findIdx?_eq_none_iff.mpr, none_or,
      findIdx?_cons]
    · simp
    · intro field hfield
      simpa using hfront field hfield
  rw [removeField, hindex]
  cases rest using reverseRecOn with
  | nil => simp
  | append_singleton rest last =>
    have hlast : (front ++ (name, value) :: (rest ++ [last])).getLast? =
        some last := by
      rw [← cons_append, ← append_assoc, getLast?_concat]
    have hset : (front ++ (name, value) :: (rest ++ [last])).set
        front.length last = front ++ last :: (rest ++ [last]) := by
      simp
    simp only [hlast]
    rw [if_neg (by simp), hset, ← cons_append, ← append_assoc,
      dropLast_concat]
    simp

theorem exists_first_field (fields : List (String × Json)) :
    (∀ field ∈ fields, field.1 ≠ name) ∨
      ∃ front value rest, fields = front ++ (name, value) :: rest ∧
        ∀ field ∈ front, field.1 ≠ name := by
  induction fields with
  | nil =>
    left
    intro field hfield
    cases hfield
  | cons field fields ih =>
    by_cases hname : field.1 = name
    · right
      refine ⟨[], field.2, fields, ?_, ?_⟩
      · rw [← hname]
        rfl
      · intro other hother
        cases hother
    · rcases ih with hnone | ⟨front, value, rest, rfl, hfront⟩
      · exact Or.inl (forall_mem_cons.mpr ⟨hname, hnone⟩)
      · exact Or.inr ⟨field :: front, value, rest, rfl,
          forall_mem_cons.mpr ⟨hname, hfront⟩⟩

theorem nodup_removeField (hnodup : (fields.map Prod.fst).Nodup)
    (name : String) : ((removeField name fields).map Prod.fst).Nodup := by
  rcases exists_first_field name fields with hnone |
    ⟨front, value, rest, rfl, hfront⟩
  · have hindex : fields.findIdx? (fun field => field.1 = name) = none := by
      rw [findIdx?_eq_none_iff]
      intro field hfield
      simpa using hnone field hfield
    rw [removeField, hindex]
    exact hnodup
  · rw [removeField_append name value hfront]
    have hkept : ((front ++ rest).map Prod.fst).Nodup :=
      hnodup.sublist (((sublist_cons_self _ _).append_left _).map _)
    cases rest using reverseRecOn with
    | nil => simpa using hkept
    | append_singleton rest last =>
      have hperm : (front ++ last :: rest).Perm (front ++ (rest ++ [last])) :=
        (perm_append_singleton last rest).symm.append_left front
      simp only [getLast?_concat, dropLast_concat]
      exact ((hperm.map Prod.fst).nodup_iff).mpr hkept

/-- Among names that differ, one field is changed where it stands. -/
theorem modify_obj_eq_map (hnodup : (fields.map Prod.fst).Nodup) (name : String)
    (change : Json → Json) :
    (obj fields).modify name change = obj (fields.map fun field =>
      (field.1, if field.1 = name then change field.2 else field.2)) := by
  have hkept (others : List (String × Json))
      (hothers : ∀ field ∈ others, field.1 ≠ name) :
      (others.map fun field =>
        (field.1, if field.1 = name then change field.2 else field.2)) =
          others := by
    refine (map_congr_left fun field hfield => ?_).trans (List.map_id _)
    rw [if_neg (hothers field hfield), id_eq]
  rcases exists_first_field name fields with hnone |
    ⟨front, value, rest, rfl, hfront⟩
  · have hget : (obj fields).get name = none := by
      rw [get_eq_none_iff, List.mem_map]
      rintro ⟨field, hfield, hname⟩
      exact hnone field hfield hname
    rw [modify, hget, hkept fields hnone]
  · have hrest : ∀ field ∈ rest, field.1 ≠ name := by
      rw [map_append, map_cons, nodup_append] at hnodup
      intro field hfield hname
      exact (nodup_cons.mp hnodup.2.1).1
        (List.mem_map.mpr ⟨field, hfield, hname⟩)
    have hget : (obj (front ++ (name, value) :: rest)).get name = some value := by
      rw [get, find?_append, find?_eq_none.mpr fun field hfield => by
        simpa using hfront field hfield]
      simp
    have hput : insertField name (change value) (front ++ (name, value) :: rest) =
        front ++ (name, change value) :: rest := by
      clear hnodup hget
      induction front with
      | nil => simp [insertField]
      | cons field front ih =>
        rw [forall_mem_cons] at hfront
        rw [cons_append, insertField, if_neg hfront.1, ih hfront.2,
          cons_append]
    rw [modify, hget, map_append, map_cons, hkept front hfront,
      hkept rest hrest, if_pos rfl]
    exact congrArg obj hput

/-- Fields whose names differ are found again after one of them has been taken
out. -/
theorem get_removeField {name key : String}
    (hnodup : (fields.map Prod.fst).Nodup) (hkey : key ≠ name) :
    (obj (removeField name fields)).get key = (obj fields).get key := by
  rcases exists_first_field name fields with hnone |
    ⟨front, value, rest, rfl, hfront⟩
  · have hindex : fields.findIdx? (fun field => field.1 = name) = none := by
      rw [findIdx?_eq_none_iff]
      intro field hfield
      simpa using hnone field hfield
    rw [removeField, hindex]
  · rw [removeField_append name value hfront]
    cases rest using reverseRecOn with
    | nil => simp [get, find?_append, Ne.symm hkey]
    | append_singleton rest last =>
      simp only [getLast?_concat, dropLast_concat, get,
        find?_append, find?_cons, Ne.symm hkey, decide_false,
        find?_nil]
      by_cases hlast : last.1 = key
      · have hrest : rest.find? (fun field => decide (field.1 = key)) =
            none := by
          rw [find?_eq_none]
          intro field hmem
          rw [decide_eq_true_eq]
          intro hsame
          simp only [map_append, map_cons, nodup_append,
            nodup_cons] at hnodup
          exact hnodup.2.1.2.2.2 field.1 (List.mem_map_of_mem hmem) last.1
            (List.mem_map_of_mem mem_cons_self)
            (hsame.trans hlast.symm)
        simp [hlast, hrest]
      · simp [hlast]

/-- An object whose field names differ; other values have none. -/
def Tidy (value : Json) : Prop :=
  ∀ fields, value = obj fields → (fields.map Prod.fst).Nodup

mutual

/-- Every object in the value has field names that differ. -/
def distinct : Json → Bool
  | .obj fields =>
    decide (fields.map Prod.fst).Nodup && distinctFields fields
  | .arr items => distinctItems items
  | _ => true

def distinctItems : List Json → Bool
  | [] => true
  | item :: rest => distinct item && distinctItems rest

def distinctFields : List (String × Json) → Bool
  | [] => true
  | (_, value) :: rest => distinct value && distinctFields rest

end

theorem Tidy.of_distinct {value : Json} (hdistinct : value.distinct = true) :
    value.Tidy := by
  intro fields hfields
  subst hfields
  rw [distinct, Bool.and_eq_true, decide_eq_true_eq] at hdistinct
  exact hdistinct.1

theorem distinct_get {value field : Json} (hdistinct : value.distinct = true)
    {name : String} (hget : value.get name = some field) :
    field.distinct = true := by
  cases value with
  | obj fields =>
    rw [distinct, Bool.and_eq_true] at hdistinct
    replace hdistinct := hdistinct.2
    induction fields with
    | nil => cases hget
    | cons first rest ih =>
      obtain ⟨key, value⟩ := first
      rw [distinctFields, Bool.and_eq_true] at hdistinct
      rw [get_cons] at hget
      split at hget
      · rw [← some.inj hget]
        exact hdistinct.1
      · exact ih hget hdistinct.2
  | null | bool | num | str | arr => cases hget

theorem distinctItems_iff {items : List Json} :
    distinctItems items = true ↔ ∀ item ∈ items, item.distinct = true := by
  induction items with
  | nil => simp [distinctItems]
  | cons item rest ih =>
    rw [distinctItems, Bool.and_eq_true, ih, forall_mem_cons]

theorem distinctFields_iff {fields : List (String × Json)} :
    distinctFields fields = true ↔ ∀ field ∈ fields, field.2.distinct = true := by
  induction fields with
  | nil => simp [distinctFields]
  | cons field rest ih =>
    rw [distinctFields, Bool.and_eq_true, ih, forall_mem_cons]

theorem distinct_arr_iff {items : List Json} :
    (arr items).distinct = true ↔ ∀ item ∈ items, item.distinct = true :=
  distinctItems_iff

theorem distinct_obj_iff :
    (obj fields).distinct = true ↔
      (fields.map Prod.fst).Nodup ∧ ∀ field ∈ fields, field.2.distinct = true := by
  rw [distinct, Bool.and_eq_true, decide_eq_true_eq, distinctFields_iff]

section Everywhere

variable (holds : Json → Prop)

mutual

/-- What holds of every object in a value. -/
def Everywhere : Json → Prop
  | .obj fields => holds (.obj fields) ∧ EverywhereFields fields
  | .arr items => EverywhereItems items
  | _ => True

def EverywhereItems : List Json → Prop
  | [] => True
  | item :: rest => Everywhere item ∧ EverywhereItems rest

def EverywhereFields : List (String × Json) → Prop
  | [] => True
  | (_, value) :: rest => Everywhere value ∧ EverywhereFields rest

end

/-- What holds of every object in a field of this one. -/
def EverywhereBelow (value : Json) : Prop :=
  ∀ fields, value = .obj fields → EverywhereFields holds fields

variable {holds}

variable {fields : List (String × Json)}

theorem everywhereFields_insertField {name : String} {change : Json → Json}
    (hchange : ∀ value, Everywhere holds (change value) ↔
      Everywhere holds value) {value : Json}
    (hget : (Json.obj fields).get name = some value) :
    EverywhereFields holds (insertField name (change value) fields) ↔
      EverywhereFields holds fields := by
  induction fields with
  | nil => cases hget
  | cons field rest ih =>
    obtain ⟨key, first⟩ := field
    rw [get_cons] at hget
    rw [insertField]
    split at hget
    · rename_i hkey
      rw [if_pos hkey, EverywhereFields, EverywhereFields, hchange,
        some.inj hget]
    · rename_i hkey
      rw [if_neg hkey, EverywhereFields, EverywhereFields, ih hget]

theorem everywhereBelow_modify {name : String} {change : Json → Json}
    (hchange : ∀ value, Everywhere holds (change value) ↔
      Everywhere holds value) (value : Json) :
    EverywhereBelow holds (value.modify name change) ↔
      EverywhereBelow holds value := by
  cases value with
  | obj fields =>
    rw [modify]
    split
    · rename_i value hget
      have hfields := everywhereFields_insertField hchange hget
      constructor
      · rintro hall others hothers
        cases hothers
        exact hfields.mp (hall _ rfl)
      · rintro hall others hothers
        cases hothers
        exact hfields.mpr (hall _ rfl)
    · exact Iff.rfl
  | null | bool | num | str | arr => exact Iff.rfl

theorem everywhereItems_iff {items : List Json} :
    EverywhereItems holds items ↔ ∀ item ∈ items, Everywhere holds item := by
  induction items with
  | nil => simp [EverywhereItems]
  | cons item rest ih =>
    rw [EverywhereItems, ih, forall_mem_cons]

theorem everywhereFields_iff :
    EverywhereFields holds fields ↔
      ∀ field ∈ fields, Everywhere holds field.2 := by
  induction fields with
  | nil => simp [EverywhereFields]
  | cons field rest ih =>
    rw [EverywhereFields, ih, forall_mem_cons]

theorem everywhere_arr_iff {items : List Json} :
    Everywhere holds (.arr items) ↔ ∀ item ∈ items, Everywhere holds item :=
  everywhereItems_iff

/-- Nothing is asked of a value that is neither a list nor an object. -/
theorem everywhere_leaf {value : Json} (harr : ∀ items, value ≠ .arr items)
    (hobj : ∀ fields, value ≠ .obj fields) : Everywhere holds value := by
  cases value with
  | arr items => exact absurd rfl (harr items)
  | obj fields => exact absurd rfl (hobj fields)
  | null | bool | num | str => trivial

theorem everywhereBelow_obj_iff :
    EverywhereBelow holds (.obj fields) ↔
      ∀ field ∈ fields, Everywhere holds field.2 := by
  rw [← everywhereFields_iff]
  constructor
  · exact fun hbelow => hbelow fields rfl
  · rintro hfields others hothers
    cases hothers
    exact hfields

theorem everywhere_obj_iff :
    Everywhere holds (.obj fields) ↔
      holds (.obj fields) ∧ EverywhereBelow holds (.obj fields) := by
  rw [Everywhere, everywhereBelow_obj_iff, everywhereFields_iff]

end Everywhere

/-- The number as an unsigned 64-bit integer. -/
def asU64 : Json → Option Nat
  | .num (.int value) =>
    if 0 ≤ value ∧ value < 2 ^ 64 then some value.toNat else none
  | _ => none

def asArr : Json → Option (List Json)
  | .arr items => some items
  | _ => none

def asObj : Json → Option (List (String × Json))
  | .obj fields => some fields
  | _ => none

def asBool : Json → Option Bool
  | .bool value => some value
  | _ => none

def isNull : Json → Bool
  | .null => true
  | _ => false

def isObject : Json → Bool
  | .obj _ => true
  | _ => false

/-- A number that counts something. -/
def nat (value : Nat) : Json := .num (.int value)

theorem asU64_nat {value : Nat} (hlt : value < 2 ^ 64) :
    (nat value).asU64 = some value := by
  have hint : (value : Int) < 2 ^ 64 := by exact_mod_cast hlt
  rw [nat, asU64, if_pos ⟨Int.natCast_nonneg value, hint⟩, Int.toNat_natCast]

/-- Equality of numbers: the two zeros of a double are the same number. -/
def sameNumber : JsonNumber → JsonNumber → Bool
  | .int a, .int b => a = b
  | .float a, .float b => a = b || (a.toNat % 2 ^ 63 = 0 && b.toNat % 2 ^ 63 = 0)
  | .int _, .float _ | .float _, .int _ => false

mutual

/-- Equality of values, which does not look at the order of an object's
fields. -/
def same : Json → Json → Bool
  | .null, .null => true
  | .bool a, .bool b => a = b
  | .num a, .num b => sameNumber a b
  | .str a, .str b => a = b
  | .arr a, .arr b => sameItems a b
  | .obj a, .obj b => a.length = b.length && sameFields a b
  | _, _ => false

def sameItems : List Json → List Json → Bool
  | [], [] => true
  | x :: xs, y :: ys => same x y && sameItems xs ys
  | _, _ => false

/-- Every field of the first object stands in the second. -/
def sameFields : List (String × Json) → List (String × Json) → Bool
  | [], _ => true
  | (name, x) :: xs, ys =>
    (match ys.find? (fun field => field.1 = name) with
      | some (_, y) => same x y
      | none => false) && sameFields xs ys

end

end Json

/-- Whether `needle` occurs in `text` as a contiguous block. -/
def containsBlock (needle : List Char) : List Char → Bool
  | [] => needle.isEmpty
  | c :: rest => needle.isPrefixOf (c :: rest) || containsBlock needle rest

end Vellum
