/-
Records in JSON: the fields of an object read as a derived `Deserialize` reads
them.  A field is required, has a default, or is optional; a value of another
shape is refused.  The shape may also be an array of the fields in order,
which no writer of records produces and which is not read here.
-/
import Vellum.Library.Json

namespace Vellum

namespace Json

universe u

variable {α : Type u}

/-- A field that must be there. -/
def field (read : Json → Option α) (name : String) (value : Json) : Option α :=
  (value.get name).bind read

/-- A field with a default. -/
def fieldOr (default : α) (read : Json → Option α) (name : String)
    (value : Json) : Option α :=
  match value.get name with
  | some found => read found
  | none => some default

/-- `null`, or a value. -/
def optional (read : Json → Option α) : Json → Option (Option α)
  | .null => some none
  | value => (read value).map some

/-- An optional field; left out it is `none`. -/
def optionalField (read : Json → Option α) (name : String) (value : Json) :
    Option (Option α) :=
  fieldOr none (optional read) name value

theorem field_of_get {value found : Json} {name : String}
    (hget : value.get name = some found) (read : Json → Option α) :
    value.field read name = read found := by
  rw [field, hget]
  rfl

theorem fieldOr_of_get {value found : Json} {name : String}
    (hget : value.get name = some found) (default : α)
    (read : Json → Option α) :
    value.fieldOr default read name = read found := by
  rw [fieldOr, hget]

theorem optional_ofOption (text : Option String) :
    optional asStr (ofOption text) = some text := by
  cases text <;> rfl

def readU32 : Json → Option UInt32
  | .num (.int value) =>
    if 0 ≤ value ∧ value < 2 ^ 32 then some (UInt32.ofNat value.toNat)
    else none
  | _ => none

def readU64 (value : Json) : Option UInt64 := value.asU64.map UInt64.ofNat

def readI64 (value : Json) : Option Int64 := value.asI64.map Int64.ofInt

/-- A signed number. -/
def int64 (value : Int64) : Json := .num (.int value.toInt)

theorem readU32_nat (value : UInt32) :
    readU32 (nat value.toNat) = some value := by
  have hlt : (value.toNat : Int) < 2 ^ 32 := by
    exact_mod_cast UInt32.toNat_lt value
  rw [nat, readU32, if_pos ⟨Int.natCast_nonneg _, hlt⟩, Int.toNat_natCast,
    UInt32.ofNat_toNat]

theorem readU64_nat (value : UInt64) :
    readU64 (nat value.toNat) = some value := by
  rw [readU64, asU64_nat (UInt64.toNat_lt value), Option.map_some,
    UInt64.ofNat_toNat]

theorem readI64_int64 (value : Int64) : readI64 (int64 value) = some value := by
  rw [readI64, int64, asI64, if_pos ⟨Int64.le_toInt value,
    Int64.toInt_lt value⟩, Option.map_some, Int64.ofInt_toInt]

end Json

end Vellum
