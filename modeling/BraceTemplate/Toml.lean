/-
# BraceTemplate.Toml — TOML values

Integers have 64 bits with sign. A date or time is kept as its text in one normal form: the letters
`T` and `Z` are capital, and a fraction of a second has no zeros at the end.
-/
import BraceTemplate.Dict

namespace BraceTemplate

set_option autoImplicit false

/-- A TOML value. -/
inductive Toml where
  | string (s : String)
  | integer (n : Int64)
  | float (x : Float)
  | boolean (b : Bool)
  | dateTime (text : String)
  | array (items : List Toml)
  | table (entries : List (String × Toml))

instance : Inhabited Toml := ⟨.table []⟩

end BraceTemplate
