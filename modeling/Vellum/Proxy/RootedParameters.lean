/-
The schema with an object root that stands for the parameters of a tool.  A
union at the root is collapsed: each property keeps the first listing of an
object branch, and what every object branch requires stays required.
-/
import Vellum.Library.JsonFields
import Vellum.Library.JsonSchema
import Vellum.Proxy.ToolSurface

namespace Vellum.Proxy

open List Option JsonSchema Json

/-- The branches of a union at the root. -/
def rootUnion (schema : Json) : Option (List Json) :=
  ((schema.get "anyOf").or (schema.get "oneOf")).bind Json.asArr

/-- The branches that are collapsed. -/
def objectBranches (schema : Json) : List Json :=
  ((rootUnion schema).getD []).filter declaresObjectType

/-- The first branch that lists a property. -/
def listingBranch (branches : List Json) (name : String) : Option Json :=
  branches.find? fun branch => (propertySchema branch name).isSome

/-- The listing that a collapsed union keeps. -/
def keptListing (branches : List Json) (name : String) : Option Json :=
  (listingBranch branches name).bind fun branch => propertySchema branch name

/-- Whether a schema has no keyword but those that describe it. -/
def constrainsNothing (schema : Json) : Bool :=
  (members schema).all fun field => field.1 ∈ ["description", "title"]

/-- A root that says it is an object, lists properties, or constrains
nothing. -/
def hasObjectRoot (schema : Json) : Bool :=
  match schema.get "type" with
  | some (.str name) => name = "object"
  | some (.arr names) => names.any fun name => name.asStr = some "object"
  | some _ => false
  | none => (schema.get "properties").isSome || constrainsNothing schema

/-! The pieces of a collapsed union. -/

theorem get_orInsert (fields : List (String × Json)) (field : String × Json)
    (name : String) :
    (Json.obj (orInsert fields field)).get name =
      ((Json.obj fields).get name).or
        (if field.1 = name then some field.2 else none) := by
  rw [orInsert]
  split
  · rename_i hthere
    split
    · rename_i hname
      rw [← hname]
      cases hget : (Json.obj fields).get field.1 with
      | none => rw [hget] at hthere; cases hthere
      | some value => rfl
    · rw [or_none]
  · rename_i habsent
    rw [Bool.not_eq_true, isSome_eq_false_iff, isNone_iff_eq_none]
      at habsent
    rw [← insertField_of_get_none habsent field.2, get_insertField]
    by_cases hname : field.1 = name
    · rw [if_pos hname.symm, if_pos hname, ← hname, habsent, none_or]
    · rw [if_neg (Ne.symm hname), if_neg hname, or_none]

theorem get_foldl_orInsert (added fields : List (String × Json))
    (name : String) :
    (Json.obj (added.foldl orInsert fields)).get name =
      ((Json.obj fields).get name).or ((Json.obj added).get name) := by
  induction added generalizing fields with
  | nil => exact or_none.symm
  | cons field rest ih =>
    rw [foldl_cons, ih, get_orInsert, get_cons, Option.or_assoc]
    split <;> rfl

/-- A property keeps the schema of the root, or its first listing. -/
theorem get_unionProperties (root : List (String × Json))
    (branches : List Json) (name : String) :
    (Json.obj (unionProperties root branches)).get name =
      ((Json.obj root).get name).or (keptListing branches name) := by
  rw [unionProperties]
  induction branches generalizing root with
  | nil => exact or_none.symm
  | cons branch rest ih =>
    have hbranch : (Json.obj (((branch.get "properties").bind
        Json.asObj).getD [])).get name = propertySchema branch name := by
      rw [propertySchema]
      cases (branch.get "properties").bind Json.asObj <;> rfl
    have hkept : keptListing (branch :: rest) name =
        (propertySchema branch name).or (keptListing rest name) := by
      rw [keptListing, listingBranch, find?_cons]
      cases hlisted : propertySchema branch name with
      | none => rfl
      | some listed => exact hlisted
    rw [foldl_cons, ih, get_foldl_orInsert, hbranch, hkept,
      Option.or_assoc]

theorem mem_sharedRequired (name : String) (branches : List Json)
    (known : List String) :
    name ∈ (branches.foldl
      (fun required branch =>
        let names := nameList (branch.get "required")
        match required with
        | none => some names
        | some current => some (current.filter fun name => name ∈ names))
      (some known)).getD [] ↔
      name ∈ known ∧ ∀ branch ∈ branches, name ∈ requiredNames branch := by
  induction branches generalizing known with
  | nil => simp
  | cons branch rest ih =>
    rw [foldl_cons, ih, mem_filter, decide_eq_true_eq,
      forall_mem_cons, and_assoc]
    rfl

variable {fields : List (String × Json)} {branches : List Json}

theorem mem_unionRequired {name : String} {root : List String} :
    name ∈ unionRequired root branches ↔ name ∈ root ∨
      (branches ≠ [] ∧ ∀ branch ∈ branches, name ∈ requiredNames branch) := by
  have hroot (known : List String) : name ∈ root.foldl
      (fun required name =>
        if name ∈ required then required else required ++ [name]) known ↔
      name ∈ root ∨ name ∈ known := by
    induction root generalizing known with
    | nil => simp
    | cons first rest ih =>
      rw [foldl_cons, ih, mem_cons]
      split
      · rename_i hknown
        constructor
        · tauto
        · rintro ((rfl | hrest) | hthere)
          · exact Or.inr hknown
          · exact Or.inl hrest
          · exact Or.inr hthere
      · rw [mem_append, mem_singleton]
        tauto
  rw [unionRequired, hroot]
  cases branches with
  | nil => simp
  | cons branch rest =>
    have hshared := mem_sharedRequired name rest (requiredNames branch)
    rw [forall_mem_cons]
    exact or_congr_right (hshared.trans
      (and_iff_right (cons_ne_nil branch rest)).symm)

/-- The fields of the root that a collapsed union keeps. -/
def keptRoot (fields : List (String × Json)) : List (String × Json) :=
  if declaresObjectType (.obj fields) then fields else []

/-- A schema in which a union has been collapsed. -/
structure Collapsed (fields : List (String × Json)) (merged : Json) : Prop where
  type : merged.get "type" = some (.str "object")
  noAnyOf : merged.get "anyOf" = none
  noOneOf : merged.get "oneOf" = none
  kept : ∀ key ∈ ["const", "enum", "additionalProperties"],
    merged.get key = (Json.obj (keptRoot fields)).get key
  property : ∀ name, propertySchema merged name =
    (propertySchema (.obj (keptRoot fields)) name).or
      (keptListing (objectBranches (.obj fields)) name)
  required : ∀ name, name ∈ requiredNames merged ↔
    name ∈ requiredNames (.obj (keptRoot fields)) ∨
      (objectBranches (.obj fields) ≠ [] ∧
        ∀ branch ∈ objectBranches (.obj fields), name ∈ requiredNames branch)

/-- The annotations of the root, put over what is kept of it. -/
theorem annotated_facts (schema : Json) {root : List (String × Json)}
    (hnodup : (root.map Prod.fst).Nodup) (keys : List String) :
    ((keys.foldl (fun merged key =>
        match schema.get key with
        | some value => Json.insertField key value merged
        | none => merged) root).map Prod.fst).Nodup ∧
      ∀ name, name ∉ keys → (Json.obj (keys.foldl (fun merged key =>
        match schema.get key with
        | some value => Json.insertField key value merged
        | none => merged) root)).get name = (Json.obj root).get name := by
  induction keys generalizing root with
  | nil => exact ⟨hnodup, fun name _ => rfl⟩
  | cons key rest ih =>
    rw [foldl_cons]
    cases hget : schema.get key with
    | none =>
      obtain ⟨hkeys, hkept⟩ := ih hnodup
      exact ⟨hkeys, fun name hname =>
        hkept name (fun hlater => hname (mem_cons_of_mem key hlater))⟩
    | some value =>
      obtain ⟨hkeys, hkept⟩ := ih (nodup_insertField hnodup key value)
      refine ⟨hkeys, fun name hname => ?_⟩
      rw [mem_cons, not_or] at hname
      rw [hkept name hname.2, get_insertField, if_neg hname.1]

/-- The root without its union, typed and annotated. -/
def annotatedRoot (fields : List (String × Json)) : List (String × Json) :=
  ["description", "title", "$defs", "definitions"].foldl
    (fun merged key =>
      match (Json.obj fields).get key with
      | some value => Json.insertField key value merged
      | none => merged)
    (Json.insertField "type" (.str "object")
      (Json.removeField "oneOf" (Json.removeField "anyOf" (keptRoot fields))))

/-- The fields that a root has in the end. -/
def rootedFields (properties : List (String × Json)) (required : List String)
    (root : List (String × Json)) : List (String × Json) :=
  let merged := Json.insertField "properties" (.obj properties)
    (Json.removeField "required" (Json.removeField "properties" root))
  if required.isEmpty then merged
  else Json.insertField "required" (.arr (required.map Json.str)) merged

theorem objectRooted_union (hunion : rootUnion (.obj fields) = some branches) :
    objectRootedToolParameters (.obj fields) =
      if (branches.filter declaresObjectType).isEmpty &&
        !declaresObjectType (.obj fields) then none
      else some (.obj (rootedFields
        (unionProperties ((((Json.obj (annotatedRoot fields)).get
          "properties").bind Json.asObj).getD [])
            (branches.filter declaresObjectType))
        (unionRequired (nameList ((Json.obj (Json.removeField "properties"
          (annotatedRoot fields))).get "required"))
            (branches.filter declaresObjectType))
        (annotatedRoot fields))) := by
  rw [rootUnion] at hunion
  simp only [objectRootedToolParameters, hunion]
  rfl

theorem nodup_keptRoot (hnodup : (fields.map Prod.fst).Nodup) :
    ((keptRoot fields).map Prod.fst).Nodup := by
  rw [keptRoot]
  split
  · exact hnodup
  · exact nodup_nil

theorem annotatedRoot_facts (hnodup : (fields.map Prod.fst).Nodup) :
    ((annotatedRoot fields).map Prod.fst).Nodup ∧
      (Json.obj (annotatedRoot fields)).get "type" = some (.str "object") ∧
      (Json.obj (annotatedRoot fields)).get "anyOf" = none ∧
      (Json.obj (annotatedRoot fields)).get "oneOf" = none ∧
      ∀ key ∈ ["const", "enum", "additionalProperties", "properties",
          "required"],
        (Json.obj (annotatedRoot fields)).get key =
          (Json.obj (keptRoot fields)).get key := by
  have hroot := nodup_keptRoot hnodup
  have hany := nodup_removeField hroot "anyOf"
  have hone := nodup_removeField hany "oneOf"
  obtain ⟨hkeys, hkept⟩ := annotated_facts (.obj fields)
    (nodup_insertField hone "type" (.str "object"))
    ["description", "title", "$defs", "definitions"]
  refine ⟨hkeys, ?_, ?_, ?_, fun key hkey => ?_⟩
  · exact (hkept "type" (by decide)).trans (by
      rw [get_insertField, if_pos rfl])
  · refine (hkept "anyOf" (by decide)).trans ?_
    rw [get_insertField, if_neg (by decide),
      get_removeField hany (by decide), get_removeField_self hroot]
  · refine (hkept "oneOf" (by decide)).trans ?_
    rw [get_insertField, if_neg (by decide),
      get_removeField_self hany]
  · have hothers : key ∉ ["description", "title", "$defs", "definitions"] ∧
        key ≠ "type" ∧ key ≠ "oneOf" ∧ key ≠ "anyOf" := by
      simp only [mem_cons, not_mem_nil, or_false] at hkey
      rcases hkey with rfl | rfl | rfl | rfl | rfl <;> decide
    refine (hkept key hothers.1).trans ?_
    rw [get_insertField, if_neg hothers.2.1,
      get_removeField hany hothers.2.2.1,
      get_removeField hroot hothers.2.2.2]

theorem get_rootedFields {root : List (String × Json)}
    (hnodup : (root.map Prod.fst).Nodup) (properties : List (String × Json))
    (required : List String) :
    (∀ key, key ≠ "properties" → key ≠ "required" →
      (Json.obj (rootedFields properties required root)).get key =
        (Json.obj root).get key) ∧
    (Json.obj (rootedFields properties required root)).get "properties" =
      some (.obj properties) ∧
    requiredNames (.obj (rootedFields properties required root)) =
      required := by
  have hstripped := nodup_removeField hnodup "properties"
  have hmerged (key : String) : (Json.obj (Json.insertField "properties"
      (.obj properties) (Json.removeField "required"
        (Json.removeField "properties" root)))).get key =
      if key = "properties" then some (.obj properties)
      else (Json.obj (Json.removeField "required"
        (Json.removeField "properties" root))).get key :=
    get_insertField _ _ _ _
  have hother (key : String) (hproperties : key ≠ "properties")
      (hrequired : key ≠ "required") : (Json.obj (Json.removeField "required"
        (Json.removeField "properties" root))).get key =
      (Json.obj root).get key :=
    (get_removeField hstripped hrequired).trans
      (get_removeField hnodup hproperties)
  simp only [rootedFields]
  split
  · rename_i hempty
    refine ⟨fun key hproperties hrequired => ?_, ?_, ?_⟩
    · rw [hmerged, if_neg hproperties, hother key hproperties hrequired]
    · rw [hmerged, if_pos rfl]
    · rw [requiredNames, hmerged, if_neg (by decide),
        get_removeField_self hstripped, List.isEmpty_iff.mp hempty]
      rfl
  · refine ⟨fun key hproperties hrequired => ?_, ?_, ?_⟩
    · rw [get_insertField, if_neg hrequired, hmerged, if_neg hproperties,
        hother key hproperties hrequired]
    · rw [get_insertField, if_neg (by decide), hmerged, if_pos rfl]
    · rw [requiredNames, get_insertField, if_pos rfl]
      change (required.map Json.str).filterMap Json.asStr = required
      rw [filterMap_map]
      exact filterMap_some

theorem collapsed_of_union {merged : Json}
    (hnodup : (fields.map Prod.fst).Nodup)
    (hunion : rootUnion (.obj fields) = some branches)
    (hmerged : objectRootedToolParameters (.obj fields) = some merged) :
    Collapsed fields merged := by
  obtain ⟨hkeys, htype, hany, hone, hkept⟩ := annotatedRoot_facts hnodup
  have hobjects : objectBranches (.obj fields) =
      branches.filter declaresObjectType := by
    rw [objectBranches, hunion]
    rfl
  rw [objectRooted_union hunion, ← hobjects] at hmerged
  split at hmerged
  · cases hmerged
  · cases hmerged
    obtain ⟨hother, hproperties, hrequired⟩ := get_rootedFields hkeys
      (unionProperties ((((Json.obj (annotatedRoot fields)).get
        "properties").bind Json.asObj).getD []) (objectBranches (.obj fields)))
      (unionRequired (nameList ((Json.obj (Json.removeField "properties"
        (annotatedRoot fields))).get "required"))
          (objectBranches (.obj fields)))
    refine ⟨?_, ?_, ?_, fun key hkey => ?_, fun name => ?_, fun name => ?_⟩
    · rw [hother "type" (by decide) (by decide), htype]
    · rw [hother "anyOf" (by decide) (by decide), hany]
    · rw [hother "oneOf" (by decide) (by decide), hone]
    · simp only [mem_cons, not_mem_nil, or_false] at hkey
      rcases hkey with rfl | rfl | rfl
      · rw [hother "const" (by decide) (by decide), hkept _ (by decide)]
      · rw [hother "enum" (by decide) (by decide), hkept _ (by decide)]
      · rw [hother "additionalProperties" (by decide) (by decide),
          hkept _ (by decide)]
    · have hlisted : (Json.obj (((((Json.obj (annotatedRoot fields)).get
          "properties").bind Json.asObj)).getD [])).get name =
          propertySchema (.obj (keptRoot fields)) name := by
        rw [hkept "properties" (by decide), propertySchema]
        cases ((Json.obj (keptRoot fields)).get "properties").bind
          Json.asObj <;> rfl
      rw [propertySchema, hproperties, ← hlisted]
      exact get_unionProperties _ _ name
    · rw [hrequired, mem_unionRequired,
        get_removeField hkeys (by decide), hkept "required" (by decide)]
      rfl

/-! What a collapsed union accepts. -/

section Meaning

variable (eqv : Json → Json → Bool)

variable {fields : List (String × Json)} {branches : List Json}
  {merged : Json}

theorem meets_keptRoot {value : Json} (hmeets : Meets eqv (.obj fields) value) :
    Meets eqv (.obj (keptRoot fields)) value := by
  rw [keptRoot]
  split
  · exact hmeets
  · refine ⟨rfl, rfl, ?_, ?_, ?_, ?_⟩
    · rw [requiredMet]
      exact Bool.or_true _
    · rintro member _ below hbelow
      cases hbelow
    · rintro branches hbranches
      cases hbranches
    · rintro branches hbranches
      cases hbranches

theorem propertySchema_keptRoot {found : List (String × Json)}
    (haccepts : accepts eqv (.obj fields) (.obj found) = true) (name : String) :
    propertySchema (.obj (keptRoot fields)) name =
      propertySchema (.obj fields) name := by
  rw [keptRoot]
  split
  · rfl
  · rename_i hdeclares
    have htype := ((accepts_obj_iff eqv fields _).mp haccepts).type
    rw [declaresObjectType, Json.isObject, Bool.true_and] at hdeclares
    rw [typeAllows.eq_def] at htype
    split at hdeclares
    · rename_i declared hget
      rw [hget] at htype
      have hobject : declared = "object" := of_decide_eq_true htype
      exact absurd (decide_eq_true hobject) hdeclares
    · rename_i names hget
      rw [hget] at htype
      obtain ⟨listed, hlisted, hallows⟩ := List.any_eq_true.mp htype
      obtain ⟨declared, hdeclared, hallows⟩ :=
        (Option.any_eq_true _ _).mp hallows
      have hobject : declared = "object" := of_decide_eq_true hallows
      rw [hobject] at hdeclared
      exact absurd (List.any_eq_true.mpr
        ⟨listed, hlisted, decide_eq_true hdeclared⟩) hdeclares
    · rename_i other hstr harr hget
      rw [hget] at htype
      cases other with
      | str declared => exact (hstr declared rfl).elim
      | arr names => exact (harr names rfl).elim
      | null | bool | num | obj => cases htype
    · rw [Bool.or_eq_true, not_or, Bool.not_eq_true,
        isSome_eq_false_iff, isNone_iff_eq_none] at hdeclares
      rw [propertySchema, propertySchema, hdeclares.1]
      rfl

/-- Of an object that the schema accepts, the collapsed union looks only at
the properties that a branch lists and at what all branches require. -/
theorem accepts_collapsed_iff {found : List (String × Json)}
    (hcollapsed : Collapsed fields merged)
    (haccepts : accepts eqv (.obj fields) (.obj found) = true) :
    accepts eqv merged (.obj found) = true ↔
      (∀ member ∈ found, propertySchema (.obj fields) member.1 = none →
        ∀ listed, keptListing (objectBranches (.obj fields)) member.1 =
          some listed → accepts eqv listed member.2 = true) ∧
      (objectBranches (.obj fields) ≠ [] → ∀ name,
        (∀ branch ∈ objectBranches (.obj fields),
          name ∈ requiredNames branch) →
        ((Json.obj found).get name).isSome = true) := by
  obtain ⟨kept, rfl⟩ : ∃ kept, merged = .obj kept := by
    have htype := hcollapsed.type
    cases merged with
    | obj kept => exact ⟨kept, rfl⟩
    | null | bool | num | str | arr => cases htype
  have hroot := meets_keptRoot eqv ((accepts_obj_iff eqv fields _).mp haccepts)
  rw [accepts_obj_iff]
  constructor
  · intro hmeets
    constructor
    · intro member hmember hunlisted listed hlisted
      refine hmeets.member member hmember listed ?_
      rw [memberSchema, hcollapsed.property,
        propertySchema_keptRoot eqv haccepts, hunlisted, hlisted]
      rfl
    · intro hsome name hshared
      have hrequired := hmeets.required
      rw [requiredMet, Json.isObject, Bool.not_true, Bool.false_or,
        List.all_eq_true] at hrequired
      exact hrequired name
        ((hcollapsed.required name).mpr (Or.inr ⟨hsome, hshared⟩))
  · rintro ⟨hlisted, hshared⟩
    refine ⟨?_, ?_, ?_, ?_, ?_, ?_⟩
    · rw [hcollapsed.type]
      rfl
    · have hfixed := hroot.fixed
      rwa [fixedMet, ← hcollapsed.kept "const" (by decide),
        ← hcollapsed.kept "enum" (by decide)] at hfixed
    · rw [requiredMet, Json.isObject, Bool.not_true, Bool.false_or,
        List.all_eq_true]
      intro name hname
      rcases (hcollapsed.required name).mp hname with hown | ⟨hsome, hall⟩
      · have hrequired := hroot.required
        rw [requiredMet, Json.isObject, Bool.not_true, Bool.false_or,
          List.all_eq_true] at hrequired
        exact hrequired name hown
      · exact hshared hsome name hall
    · intro member hmember below hbelow
      rw [memberSchema, hcollapsed.property,
        hcollapsed.kept "additionalProperties" (by decide)] at hbelow
      cases hown : propertySchema (.obj (keptRoot fields)) member.1 with
      | some own =>
        rw [hown] at hbelow
        refine hroot.member member hmember below ?_
        rw [memberSchema, hown]
        exact hbelow
      | none =>
        rw [hown, none_or] at hbelow
        cases hkept : keptListing (objectBranches (.obj fields)) member.1 with
        | some listed =>
          rw [hkept, some_or] at hbelow
          rw [propertySchema_keptRoot eqv haccepts] at hown
          exact hlisted member hmember hown below (hkept.trans hbelow)
        | none =>
          rw [hkept, none_or] at hbelow
          refine hroot.member member hmember below ?_
          rw [memberSchema, hown]
          exact hbelow
    · intro branches hbranches
      rw [hcollapsed.noAnyOf] at hbranches
      cases hbranches
    · intro branches hbranches
      rw [hcollapsed.noOneOf] at hbranches
      cases hbranches

/-- What is promised of the schema that stands for a tool's own. -/
structure StandsFor (schema merged : Json) : Prop where
  rooted : hasObjectRoot merged = true
  noUnion : merged.get "anyOf" = none ∧ merged.get "oneOf" = none
  superset : ∀ found, (Json.obj found).distinct = true →
    accepts eqv schema (.obj found) = true →
      accepts eqv merged (.obj found) = true
  stable : objectRootedToolParameters merged = some merged

/-- When a schema is no smaller for having its union collapsed. -/
structure KeepsEveryObject (schema : Json) : Prop where
  /-- An object that the schema accepts and a listing branch does not still
  has a value there that the listing accepts. -/
  listed : ∀ found, (Json.obj found).distinct = true →
    accepts eqv schema (.obj found) = true →
    ∀ member ∈ found, propertySchema schema member.1 = none →
      ∀ branch, listingBranch (objectBranches schema) member.1 = some branch →
        accepts eqv branch (.obj found) = false →
        ∀ listed, propertySchema branch member.1 = some listed →
          accepts eqv listed member.2 = true
  /-- An object that the schema accepts and no object branch does still has
  what all of them require. -/
  required : ∀ found, (Json.obj found).distinct = true →
    accepts eqv schema (.obj found) = true →
    objectBranches schema ≠ [] →
    (∀ branch ∈ objectBranches schema,
      accepts eqv branch (.obj found) = false) →
    ∀ name, (∀ branch ∈ objectBranches schema,
      name ∈ requiredNames branch) → ((Json.obj found).get name).isSome = true
  /-- Without a union, a type and properties there is no other constraint. -/
  rooted : rootUnion schema = none → schema.get "type" = none →
    schema.get "properties" = none → constrainsNothing schema = true

theorem objectRooted_of_noUnion (hunion : rootUnion (.obj fields) = none) :
    objectRootedToolParameters (.obj fields) =
      if declaresObjectType (.obj fields) then some (.obj fields)
      else none := by
  rw [rootUnion] at hunion
  simp only [objectRootedToolParameters, hunion]

theorem hasObjectRoot_iff
    (hdeclares : declaresObjectType (.obj fields) = true) :
    hasObjectRoot (.obj fields) = true ↔
      ((Json.obj fields).get "type" = none →
        (Json.obj fields).get "properties" = none →
          constrainsNothing (.obj fields) = true) := by
  rw [declaresObjectType, Json.isObject, Bool.true_and] at hdeclares
  rw [hasObjectRoot.eq_def]
  cases htype : (Json.obj fields).get "type" with
  | none => cases (Json.obj fields).get "properties" <;> simp
  | some declared =>
    rw [htype] at hdeclares
    have hroot : (match some declared with
        | some (.str name) => decide (name = "object")
        | some (.arr names) =>
          names.any fun name => name.asStr = some "object"
        | some _ => false
        | none => ((Json.obj fields).get "properties").isSome ||
            constrainsNothing (.obj fields)) = true := by
      cases declared <;> exact hdeclares
    exact iff_of_true hroot fun hnone => by cases hnone

/-- A schema without a union stands for itself. -/
theorem standsFor_self_iff (hformed : wellFormed (.obj fields) = true)
    (hunion : rootUnion (.obj fields) = none)
    (hdeclares : declaresObjectType (.obj fields) = true) :
    StandsFor eqv (.obj fields) (.obj fields) ↔
      KeepsEveryObject eqv (.obj fields) := by
  have hnone (key : String) (hkey : key = "anyOf" ∨ key = "oneOf")
      (hthere : (Json.obj fields).get key ≠ none) :
      (Json.obj fields).get key ≠ none ∧
        ∃ branches, (Json.obj fields).get key = some (.arr branches) := by
    obtain ⟨value, hvalue⟩ := ne_none_iff_exists'.mp hthere
    obtain ⟨branches, rfl⟩ := union_isArr hformed hkey hvalue
    exact ⟨hthere, branches, hvalue⟩
  have hany : (Json.obj fields).get "anyOf" = none := by
    by_contra hthere
    obtain ⟨-, branches, hbranches⟩ := hnone "anyOf" (Or.inl rfl) hthere
    rw [rootUnion, hbranches] at hunion
    cases hunion
  have hone : (Json.obj fields).get "oneOf" = none := by
    by_contra hthere
    obtain ⟨-, branches, hbranches⟩ := hnone "oneOf" (Or.inr rfl) hthere
    rw [rootUnion, hany, hbranches] at hunion
    cases hunion
  have hobjects : objectBranches (.obj fields) = [] := by
    rw [objectBranches, hunion]
    rfl
  constructor
  · intro hstands
    refine ⟨?_, ?_, fun _ => (hasObjectRoot_iff hdeclares).mp hstands.rooted⟩
    · intro found _ _ member _ _ branch hbranch
      rw [hobjects] at hbranch
      cases hbranch
    · intro found _ _ hsome
      exact absurd hobjects hsome
  · intro hkeeps
    refine ⟨(hasObjectRoot_iff hdeclares).mpr (hkeeps.rooted hunion),
      ⟨hany, hone⟩, fun found _ haccepts => haccepts, ?_⟩
    rw [objectRooted_of_noUnion hunion, if_pos hdeclares]

/-- A collapsed union is an object root, and stays what it is. -/
theorem collapsed_stable (hcollapsed : Collapsed fields merged) :
    hasObjectRoot merged = true ∧
      objectRootedToolParameters merged = some merged := by
  have htype := hcollapsed.type
  cases merged with
  | obj kept =>
    have hunion : rootUnion (.obj kept) = none := by
      rw [rootUnion, hcollapsed.noAnyOf, hcollapsed.noOneOf]
      rfl
    have hdeclares : declaresObjectType (.obj kept) = true := by
      rw [declaresObjectType, htype]
      rfl
    refine ⟨?_, ?_⟩
    · rw [hasObjectRoot, htype]
      rfl
    · rw [objectRooted_of_noUnion hunion, if_pos hdeclares]
  | null | bool | num | str | arr => cases htype

/-- A collapsed union accepts what the union did if and only if the listings
and the requirements are met where the listing branches reject. -/
theorem standsFor_collapsed_iff
    (hunion : rootUnion (.obj fields) = some branches)
    (hcollapsed : Collapsed fields merged) :
    StandsFor eqv (.obj fields) merged ↔
      KeepsEveryObject eqv (.obj fields) := by
  constructor
  · intro hstands
    refine ⟨?_, ?_, fun hnone => ?_⟩
    · intro found hdistinct haccepts member hmember hunlisted branch hbranch _
        listed hlisted
      refine ((accepts_collapsed_iff eqv hcollapsed haccepts).mp
        (hstands.superset found hdistinct haccepts)).1 member hmember hunlisted
          listed ?_
      rw [keptListing, hbranch]
      exact hlisted
    · intro found hdistinct haccepts hsome _ name hshared
      exact ((accepts_collapsed_iff eqv hcollapsed haccepts).mp
        (hstands.superset found hdistinct haccepts)).2 hsome name hshared
    · rw [hnone] at hunion
      cases hunion
  · intro hkeeps
    obtain ⟨hrooted, hstable⟩ := collapsed_stable hcollapsed
    refine ⟨hrooted, ⟨hcollapsed.noAnyOf, hcollapsed.noOneOf⟩, ?_, hstable⟩
    intro found hdistinct haccepts
    rw [accepts_collapsed_iff eqv hcollapsed haccepts]
    constructor
    · intro member hmember hunlisted listed hkept
      obtain ⟨branch, hbranch, hlisted⟩ := bind_eq_some_iff.mp hkept
      cases hbranchAccepts : accepts eqv branch (.obj found) with
      | true =>
        refine accepts_member eqv hbranchAccepts hmember ?_
        rw [memberSchema, hlisted]
        rfl
      | false =>
        exact hkeeps.listed found hdistinct haccepts member hmember hunlisted
          branch hbranch hbranchAccepts listed hlisted
    · intro hsome name hshared
      by_cases hnone : ∀ branch ∈ objectBranches (.obj fields),
          accepts eqv branch (.obj found) = false
      · exact hkeeps.required found hdistinct haccepts hsome hnone name
          hshared
      · obtain ⟨branch, hrest⟩ := not_forall.mp hnone
        obtain ⟨hbranch, hbranchAccepts⟩ := Classical.not_imp.mp hrest
        rw [Bool.not_eq_false] at hbranchAccepts
        exact accepts_required eqv hbranchAccepts (hshared branch hbranch)

theorem accepts_typeSchema_object (found : List (String × Json)) :
    accepts eqv (typeSchema "object") (.obj found) = true := by
  rw [typeSchema, accepts_obj_iff]
  refine ⟨rfl, rfl, rfl, ?_, ?_, ?_⟩
  · intro member _ below hbelow
    cases hbelow
  · intro branches hbranches
    cases hbranches
  · intro branches hbranches
    cases hbranches

/-- A schema that was rooted in an object stands for the tool's own if and only
if no object is lost in the collapse and a root without a union is one. -/
theorem rootedParameters_iff {schema merged : Json}
    (hformed : wellFormed schema = true)
    (hmerged : objectRootedToolParameters schema = some merged) :
    StandsFor eqv schema merged ↔ KeepsEveryObject eqv schema := by
  cases schema with
  | obj fields =>
    cases hunion : rootUnion (.obj fields) with
    | none =>
      rw [objectRooted_of_noUnion hunion] at hmerged
      split at hmerged
      · rename_i hdeclares
        cases hmerged
        exact standsFor_self_iff eqv hformed hunion hdeclares
      · cases hmerged
    | some branches =>
      have hnodup : (fields.map Prod.fst).Nodup := by
        rw [wellFormed, Bool.and_eq_true] at hformed
        exact of_decide_eq_true hformed.1
      exact standsFor_collapsed_iff eqv hunion
        (collapsed_of_union hnodup hunion hmerged)
  | bool allowed =>
    cases hmerged
    refine iff_of_true ⟨rfl, ⟨rfl, rfl⟩,
      fun found _ _ => accepts_typeSchema_object eqv found, rfl⟩
      ⟨?_, ?_, fun _ _ _ => rfl⟩
    · intro found _ _ member _ _ branch hbranch
      cases hbranch
    · intro found _ _ hsome
      exact absurd rfl hsome
  | null | num | str | arr => cases hformed

theorem exists_accepting_branch {schema value : Json}
    (hunion : rootUnion schema = some branches)
    (haccepts : accepts eqv schema value = true) :
    ∃ branch ∈ branches, accepts eqv branch value = true := by
  cases schema with
  | obj fields =>
    have hmeets := (accepts_obj_iff eqv fields value).mp haccepts
    rw [← countP_pos_iff]
    rw [rootUnion] at hunion
    cases hany : (Json.obj fields).get "anyOf" with
    | some listed =>
      rw [hany] at hunion
      exact hmeets.anyOf branches (by rw [hany]; exact hunion)
    | none =>
      rw [hany] at hunion
      have hone := hmeets.oneOf branches hunion
      exact hone ▸ Nat.one_pos
  | null | bool | num | str | arr => cases hunion

/-- Nothing is lost among object branches that list the same schemas. -/
theorem keepsEveryObject_of_agreeing {schema : Json}
    (hunion : rootUnion schema = some branches)
    (hobjects : ∀ branch ∈ branches, declaresObjectType branch = true)
    (hagree : ∀ branch ∈ branches, ∀ name listed,
      keptListing branches name = some listed →
        propertySchema branch name = some listed) :
    KeepsEveryObject eqv schema := by
  have hall : objectBranches schema = branches := by
    rw [objectBranches, hunion]
    exact filter_eq_self.mpr hobjects
  refine ⟨?_, ?_, fun hnone => ?_⟩
  · intro found _ haccepts member hmember _ branch hbranch _ listed hlisted
    obtain ⟨accepting, hmem, haccepting⟩ :=
      exists_accepting_branch eqv hunion haccepts
    refine accepts_member eqv haccepting hmember ?_
    rw [hall] at hbranch
    have hkept : keptListing branches member.1 = some listed := by
      rw [keptListing, hbranch]
      exact hlisted
    rw [memberSchema, hagree accepting hmem member.1 listed hkept]
    rfl
  · intro found _ haccepts _ hnone
    obtain ⟨accepting, hmem, haccepting⟩ :=
      exists_accepting_branch eqv hunion haccepts
    rw [hnone accepting (hall ▸ hmem)] at haccepting
    cases haccepting
  · rw [hnone] at hunion
    cases hunion

end Meaning

namespace UnionRoots

def property (name type : String) : String × Json := (name, typeSchema type)

/-- One of two properties is required. -/
def either : Json :=
  .obj [("type", .str "object"),
    ("properties", .obj [property "path" "string", property "id" "integer"]),
    ("anyOf", .arr [.obj [("required", .arr [.str "path"])],
      .obj [("required", .arr [.str "id"])]])]

theorem either_is_kept : StandsFor Json.same either
    (.obj [("type", .str "object"), ("properties",
      .obj [property "path" "string", property "id" "integer"])]) := by
  refine (rootedParameters_iff Json.same (by decide) (by decide)).mpr ?_
  refine keepsEveryObject_of_agreeing Json.same rfl (by decide) ?_
  intro branch _ name listed hlisted
  cases hlisted

/-- A call by name, or by number. -/
def branch (type : String) : Json :=
  .obj [("type", .str "object"), ("properties", .obj [property "id" type]),
    ("required", .arr [.str "id"])]

def byNameOrNumber : Json :=
  .obj [("anyOf", .arr [branch "string", branch "integer"])]

/-- The schema that is sent refuses the number. -/
theorem number_is_refused : wellFormed byNameOrNumber = true ∧
    objectRootedToolParameters byNameOrNumber = some (.obj
      [("type", .str "object"), ("properties", .obj [property "id" "string"]),
        ("required", .arr [.str "id"])]) ∧
    accepts Json.same byNameOrNumber (.obj [("id", .nat 7)]) = true ∧
    accepts Json.same (.obj [("type", .str "object"),
      ("properties", .obj [property "id" "string"]),
      ("required", .arr [.str "id"])]) (.obj [("id", .nat 7)]) = false := by
  decide

/-- A constant is sent as the parameters of a tool. -/
example : objectRootedToolParameters (.obj [("const", .nat 5)]) =
    some (.obj [("const", .nat 5)]) ∧
    hasObjectRoot (.obj [("const", .nat 5)]) = false := by
  decide

end UnionRoots

end Vellum.Proxy
