/-
TOML values, as a parsed document gives them.  The fields of a table have
distinct names; what a document looks like as text is the parser's part.
-/
import Mathlib

namespace Vellum

inductive Toml where
  | string (value : String)
  | integer (value : Int)
  | float (text : String)
  | boolean (value : Bool)
  | datetime (text : String)
  | array (items : List Toml)
  | table (fields : List (String × Toml))

namespace Toml

def asInteger : Toml → Option Int
  | .integer value => some value
  | _ => none

def asTable : Toml → Option (List (String × Toml))
  | .table fields => some fields
  | _ => none

/-- `value.get(name)`; a value that is not a table has no fields. -/
def get (value : Toml) (name : String) : Option Toml :=
  value.asTable.bind fun fields => fields.lookup name

end Toml

end Vellum
