import SiblingQuery.Json.Value

/-!
# TOML values

A value is a scalar, an array or a table.  A table holds each key once.  Dates and times are kept
as written, since nothing here counts with them; a float may be infinite or no number.
-/

namespace SiblingQuery

/-- A TOML value. -/
inductive Toml where
  | string (text : String)
  | integer (value : Int)
  | float (value : DoubleBits)
  | bool (value : Bool)
  | dateTime (written : String)
  | array (items : List Toml)
  | table (members : List (String × Toml))
deriving Repr, Inhabited

namespace Toml

/-- The text of a string. -/
def asString? : Toml → Option String
  | .string text => some text
  | _ => none

/-- The truth value of a boolean. -/
def asBool? : Toml → Option Bool
  | .bool value => some value
  | _ => none

end Toml

end SiblingQuery
