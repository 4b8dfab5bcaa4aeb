/-
# BraceTemplate.Json.Printer — compact JSON text

A value is written without any space. In strings only the quote, the backslash and the control
characters below U+0020 are escaped. A float has a point or an exponent, so that it reads back as a
float.
-/
import BraceTemplate.Json
import BraceTemplate.Decimal.Style

namespace BraceTemplate.Json

set_option autoImplicit false

/-- Floats are written positionally for decimal exponents from -5 to 15, whole ones with `.0`, and
with a signed exponent otherwise; of two equally near decimals the even one is taken. -/
def floatStyle : Decimal.Style :=
  { tie := .toEven, positional := fun e => -5 ≤ e && e ≤ 15, pointZero := true }

/-- A character as it is written in a string. -/
def escape (c : Char) : List Char :=
  if c == '"' then ['\\', '"']
  else if c == '\\' then ['\\', '\\']
  else if c == '\x08' then ['\\', 'b']
  else if c == '\x0c' then ['\\', 'f']
  else if c == '\n' then ['\\', 'n']
  else if c == '\r' then ['\\', 'r']
  else if c == '\t' then ['\\', 't']
  else if c.toNat < 0x20 then
    ['\\', 'u', '0', '0', Nat.digitChar (c.toNat / 16), Nat.digitChar (c.toNat % 16)]
  else [c]

/-- A string with its quotes. -/
def quoted (s : String) : List Char :=
  '"' :: (s.toList.flatMap escape ++ ['"'])

/-- A number as it is written. -/
def Number.chars : Number → List Char
  | .integer n _ => (toString n).toList
  | .float x _ => floatStyle.finiteChars x

mutual

/-- A value as it is written. -/
def chars : Json → List Char
  | .null => ['n', 'u', 'l', 'l']
  | .bool true => ['t', 'r', 'u', 'e']
  | .bool false => ['f', 'a', 'l', 's', 'e']
  | .number n => n.chars
  | .string s => quoted s
  | .array items => '[' :: (itemChars items ++ [']'])
  | .object members => '{' :: (memberChars members ++ ['}'])

/-- The items of an array with commas between them. -/
def itemChars : List Json → List Char
  | [] => []
  | [item] => chars item
  | item :: rest => chars item ++ ',' :: itemChars rest

/-- The members of an object with commas between them. -/
def memberChars : List (String × Json) → List Char
  | [] => []
  | [(k, v)] => quoted k ++ ':' :: chars v
  | (k, v) :: rest => quoted k ++ ':' :: (chars v ++ ',' :: memberChars rest)

end

/-- The text of a value. -/
def text (j : Json) : String :=
  String.ofList (chars j)

end BraceTemplate.Json
