/-
Which values satisfy a JSON schema, for the keywords that speak of types,
members, alternatives and fixed values.  A keyword that is not there asks for
nothing, and one that speaks of members asks nothing of a value that has none.
How the fixed values are compared is left open.
-/
import Vellum.Library.Json

namespace Vellum

namespace JsonSchema

/-- Whether a double has no fractional part. -/
def wholeDouble (bits : UInt64) : Bool :=
  let exponent := bits.toNat / 2 ^ 52 % 2 ^ 11
  let fraction := bits.toNat % 2 ^ 52
  if exponent = 0 then fraction = 0
  else 1075 ≤ exponent || (2 ^ 52 + fraction) % 2 ^ (1075 - exponent) = 0

def typeNames : List String :=
  ["null", "boolean", "object", "array", "number", "string", "integer"]

def hasType (name : String) : Json → Bool
  | .null => name = "null"
  | .bool _ => name = "boolean"
  | .num (.int _) => name = "number" || name = "integer"
  | .num (.float bits) =>
    name = "number" || (name = "integer" && wholeDouble bits)
  | .str _ => name = "string"
  | .arr _ => name = "array"
  | .obj _ => name = "object"

/-- The `type` keyword: a name, or a list of them. -/
def typeAllows (declared : Option Json) (value : Json) : Bool :=
  match declared with
  | none => true
  | some (.str name) => hasType name value
  | some (.arr names) => names.any fun name =>
    name.asStr.any fun name => hasType name value
  | some _ => false

/-- The names that the `required` keyword lists. -/
def requiredNames (schema : Json) : List String :=
  (((schema.get "required").bind Json.asArr).getD []).filterMap Json.asStr

/-- The schema that is listed for a property. -/
def propertySchema (schema : Json) (name : String) : Option Json :=
  ((schema.get "properties").bind Json.asObj).bind fun table =>
    (Json.obj table).get name

/-- What a member under a name has to satisfy. -/
def memberSchema (schema : Json) (name : String) : Option Json :=
  (propertySchema schema name).or (schema.get "additionalProperties")

/-- The members of an object; other values have none. -/
def members (value : Json) : List (String × Json) := value.asObj.getD []

def requiredMet (schema value : Json) : Bool :=
  !value.isObject ||
    (requiredNames schema).all fun name => (value.get name).isSome

/-- A keyword below which no schema stands, with a value of its form.  The last
two describe a schema and ask for nothing. -/
def plainKeyword (key : String) (value : Json) : Bool :=
  if key = "type" then
    value.asStr.any (fun name => name ∈ typeNames) ||
      value.asArr.any fun names =>
        names.all fun name => name.asStr.any fun name => name ∈ typeNames
  else if key = "required" then
    value.asArr.any fun names => names.all fun name => name.asStr.isSome
  else if key = "enum" then value.asArr.isSome
  else key ∈ ["const", "description", "title"]

mutual

/-- A schema of these keywords only, each once and with a value of its form. -/
def wellFormed : Json → Bool
  | .bool _ => true
  | .obj fields => (fields.map Prod.fst).Nodup && wellFormedKeywords fields
  | _ => false

def wellFormedKeywords : List (String × Json) → Bool
  | [] => true
  | (key, value) :: rest =>
    (if key = "additionalProperties" then wellFormed value
      else if key = "properties" then wellFormedTable value
      else if key = "anyOf" ∨ key = "oneOf" then wellFormedBranches value
      else plainKeyword key value) && wellFormedKeywords rest

def wellFormedTable : Json → Bool
  | .obj table => (table.map Prod.fst).Nodup && wellFormedProperties table
  | _ => false

def wellFormedProperties : List (String × Json) → Bool
  | [] => true
  | (_, schema) :: rest => wellFormed schema && wellFormedProperties rest

def wellFormedBranches : Json → Bool
  | .arr branches => !branches.isEmpty && wellFormedItems branches
  | _ => false

def wellFormedItems : List Json → Bool
  | [] => true
  | branch :: rest => wellFormed branch && wellFormedItems rest

end

theorem wellFormedBranches_of_get {fields : List (String × Json)}
    (hfields : wellFormedKeywords fields = true) {key : String} {value : Json}
    (hkey : key = "anyOf" ∨ key = "oneOf")
    (hvalue : (Json.obj fields).get key = some value) :
    wellFormedBranches value = true := by
  have hothers : key ≠ "additionalProperties" ∧ key ≠ "properties" := by
    rcases hkey with rfl | rfl <;> decide
  induction fields with
  | nil => cases hvalue
  | cons field rest ih =>
    rw [wellFormedKeywords, Bool.and_eq_true] at hfields
    rw [Json.get_cons] at hvalue
    split at hvalue
    · rename_i hname
      rw [hname, if_neg hothers.1, if_neg hothers.2, if_pos hkey,
        Option.some.inj hvalue] at hfields
      exact hfields.1
    · exact ih hfields.2 hvalue

theorem union_isArr {fields : List (String × Json)}
    (hformed : wellFormed (.obj fields) = true) {key : String} {value : Json}
    (hkey : key = "anyOf" ∨ key = "oneOf")
    (hvalue : (Json.obj fields).get key = some value) :
    ∃ branches, value = .arr branches := by
  rw [wellFormed, Bool.and_eq_true] at hformed
  have hbranches := wellFormedBranches_of_get hformed.2 hkey hvalue
  cases value with
  | arr branches => exact ⟨branches, rfl⟩
  | null | bool | num | str | obj => cases hbranches

section Meaning

variable (eqv : Json → Json → Bool)

/-- The `const` and `enum` keywords. -/
def fixedMet (schema value : Json) : Bool :=
  ((schema.get "const").all fun fixed => eqv fixed value) &&
    ((schema.get "enum").bind Json.asArr).all fun fixed =>
      fixed.any fun fixed => eqv fixed value

mutual

/-- Whether a value satisfies a schema.  The keywords of an object are walked
so that the schemas below them are met where they stand. -/
def accepts : (schema value : Json) → Bool
  | .bool allowed, _ => allowed
  | .obj fields, value =>
    typeAllows ((Json.obj fields).get "type") value &&
      fixedMet eqv (.obj fields) value && requiredMet (.obj fields) value &&
      ((members value).all fun member =>
        ((acceptsProperty fields member.1 member.2).or
          (acceptsNamed fields "additionalProperties" member.2)).getD true) &&
      ((acceptingBranches fields "anyOf" value).all fun count => 0 < count) &&
      (acceptingBranches fields "oneOf" value).all fun count => count = 1
  | _, _ => true
termination_by structural schema => schema

/-- The answer of the schema that a table has under a name. -/
def acceptsNamed : List (String × Json) → String → Json → Option Bool
  | [], _, _ => none
  | (key, schema) :: rest, name, value =>
    if key = name then some (accepts schema value)
    else acceptsNamed rest name value
termination_by structural table => table

def acceptsListed : Json → String → Json → Option Bool
  | .obj table, name, value => acceptsNamed table name value
  | _, _, _ => none
termination_by structural listed => listed

def acceptsProperty : List (String × Json) → String → Json → Option Bool
  | [], _, _ => none
  | (key, listed) :: rest, name, value =>
    if key = "properties" then acceptsListed listed name value
    else acceptsProperty rest name value
termination_by structural fields => fields

def acceptingItems : List Json → Json → Nat
  | [], _ => 0
  | branch :: rest, value =>
    acceptingItems rest value + (accepts branch value).toNat
termination_by structural branches => branches

def acceptingList : Json → Json → Option Nat
  | .arr branches, value => some (acceptingItems branches value)
  | _, _ => none
termination_by structural branches => branches

/-- How many branches of a union accept a value. -/
def acceptingBranches : List (String × Json) → String → Json → Option Nat
  | [], _, _ => none
  | (key, branches) :: rest, name, value =>
    if key = name then acceptingList branches value
    else acceptingBranches rest name value
termination_by structural fields => fields

end

/-- The answers of the walk are those of the schemas that a lookup finds. -/
theorem acceptsNamed_eq (table : List (String × Json)) (name : String)
    (value : Json) :
    acceptsNamed eqv table name value =
      ((Json.obj table).get name).map fun schema =>
        accepts eqv schema value := by
  induction table with
  | nil => rfl
  | cons field rest ih =>
    rw [acceptsNamed, Json.get_cons, ih]
    split <;> rfl

variable (fields : List (String × Json)) (name : String) (value : Json)

theorem acceptsProperty_eq :
    acceptsProperty eqv fields name value =
      (propertySchema (.obj fields) name).map fun schema =>
        accepts eqv schema value := by
  induction fields with
  | nil => rfl
  | cons field rest ih =>
    rw [acceptsProperty, propertySchema, Json.get_cons]
    split
    · cases field.2 with
      | obj table => exact acceptsNamed_eq eqv table name value
      | null | bool | num | str | arr => rfl
    · exact ih

theorem acceptingItems_eq (branches : List Json) (value : Json) :
    acceptingItems eqv branches value =
      branches.countP fun branch => accepts eqv branch value := by
  induction branches with
  | nil => rfl
  | cons branch rest ih =>
    rw [acceptingItems, ih, List.countP_cons]
    cases accepts eqv branch value <;> rfl

theorem acceptingBranches_eq :
    acceptingBranches eqv fields name value =
      (((Json.obj fields).get name).bind Json.asArr).map fun branches =>
        branches.countP fun branch => accepts eqv branch value := by
  induction fields with
  | nil => rfl
  | cons field rest ih =>
    rw [acceptingBranches, Json.get_cons]
    split
    · cases field.2 with
      | arr branches =>
        exact congrArg some (acceptingItems_eq eqv branches value)
      | null | bool | num | str | obj => rfl
    · exact ih

/-- What each keyword of a schema asks of a value. -/
structure Meets (schema value : Json) : Prop where
  type : typeAllows (schema.get "type") value = true
  fixed : fixedMet eqv schema value = true
  required : requiredMet schema value = true
  member : ∀ member ∈ members value, ∀ below,
    memberSchema schema member.1 = some below →
      accepts eqv below member.2 = true
  anyOf : ∀ branches, (schema.get "anyOf").bind Json.asArr = some branches →
    0 < branches.countP fun branch => accepts eqv branch value
  oneOf : ∀ branches, (schema.get "oneOf").bind Json.asArr = some branches →
    (branches.countP fun branch => accepts eqv branch value) = 1

theorem accepts_obj_iff :
    accepts eqv (.obj fields) value = true ↔ Meets eqv (.obj fields) value := by
  have hmember (member : String × Json) :
      ((acceptsProperty eqv fields member.1 member.2).or
        (acceptsNamed eqv fields "additionalProperties" member.2)).getD true =
          true ↔
        ∀ below, memberSchema (.obj fields) member.1 = some below →
          accepts eqv below member.2 = true := by
    rw [acceptsProperty_eq, acceptsNamed_eq, ← Option.map_or, memberSchema]
    cases (propertySchema (.obj fields) member.1).or
      ((Json.obj fields).get "additionalProperties") <;> simp
  rw [accepts, acceptingBranches_eq, acceptingBranches_eq]
  simp only [Bool.and_eq_true, List.all_eq_true, Option.all_eq_true,
    Option.map_eq_some_iff, decide_eq_true_eq, hmember]
  constructor
  · rintro ⟨⟨⟨⟨⟨htype, hfixed⟩, hrequired⟩, hmembers⟩, hany⟩, hone⟩
    exact ⟨htype, hfixed, hrequired, hmembers,
      fun branches hbranches => hany _ ⟨branches, hbranches, rfl⟩,
      fun branches hbranches => hone _ ⟨branches, hbranches, rfl⟩⟩
  · intro hmeets
    refine ⟨⟨⟨⟨⟨hmeets.type, hmeets.fixed⟩, hmeets.required⟩,
      hmeets.member⟩, ?_⟩, ?_⟩
    · rintro _ ⟨branches, hbranches, rfl⟩
      exact hmeets.anyOf branches hbranches
    · rintro _ ⟨branches, hbranches, rfl⟩
      exact hmeets.oneOf branches hbranches

theorem accepts_required {schema : Json} {fields : List (String × Json)}
    {name : String} (haccepts : accepts eqv schema (.obj fields) = true)
    (hname : name ∈ requiredNames schema) :
    ((Json.obj fields).get name).isSome = true := by
  cases schema with
  | obj keywords =>
    have hrequired := ((accepts_obj_iff eqv keywords _).mp haccepts).required
    rw [requiredMet, Json.isObject, Bool.not_true, Bool.false_or,
      List.all_eq_true] at hrequired
    exact hrequired name hname
  | null | bool | num | str | arr => cases hname

/-- A value with its members under a schema that it satisfies. -/
theorem accepts_member {schema value below : Json} {member : String × Json}
    (haccepts : accepts eqv schema value = true)
    (hmember : member ∈ members value)
    (hbelow : memberSchema schema member.1 = some below) :
    accepts eqv below member.2 = true := by
  cases schema with
  | obj fields =>
    exact ((accepts_obj_iff eqv fields value).mp haccepts).member member
      hmember below hbelow
  | null | bool | num | str | arr => cases hbelow

end Meaning

end JsonSchema

end Vellum
