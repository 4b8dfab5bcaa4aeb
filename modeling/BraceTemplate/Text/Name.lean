/-
# BraceTemplate.Text.Name — names and digit strings

Variables, modifiers, callables, blocks, loop items and argument keys all have names of one form:
an ASCII letter or underscore, then ASCII letters, digits and underscores.
-/

namespace BraceTemplate.Text

set_option autoImplicit false

/-- A character that may begin a name. -/
def beginsName (c : Char) : Bool :=
  c.isAlpha || c == '_'

/-- A character that may continue a name. -/
def continuesName (c : Char) : Bool :=
  c.isAlphanum || c == '_'

/-- The form of names: a letter or underscore, then letters, digits and underscores. -/
def isName : List Char → Bool
  | [] => false
  | c :: cs => beginsName c && cs.all continuesName

/-- A text of ASCII digits only; the empty text counts as one. -/
def isDigits (s : List Char) : Bool :=
  s.all Char.isDigit

/-- The value of a decimal digit. -/
def digitValue (c : Char) : Nat :=
  c.toNat - '0'.toNat

/-- The number that decimal digits denote, continued from the digits read before. -/
def valueFrom (before : Nat) (digits : List Char) : Nat :=
  digits.foldl (fun n c => n * 10 + digitValue c) before

/-- The number that decimal digits denote; leading zeros are allowed. -/
def valueOf (digits : List Char) : Nat :=
  valueFrom 0 digits

end BraceTemplate.Text
