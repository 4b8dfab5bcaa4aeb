/-
# BraceTemplate.Toml.Reader — what is relied on in a reader of TOML

A reader takes documents apart, and in them the values behind equals signs. Values are assigned with
whatever reader is given, so `Reader` has the two functions, and `Reader.Laws` what TOML 1.0 says of
them as far as documents of a single key go: a pair of key and value is a document; behind the value
of a pair the line ends, perhaps with a comment; no key is set twice; a string stands in quotes and
no escape is shorter than what it denotes; and dates and times have no number signs or line ends.

`reader` is the one of `Toml.Parser`.
-/
import BraceTemplate.Toml.Parser

namespace BraceTemplate.Toml

set_option autoImplicit false

/-- A reader of TOML. -/
structure Reader where
  /-- The entries of the document that a text is. -/
  document? : String → Option (List (String × Toml))
  /-- The value that a text begins with, and the text behind it. -/
  value? : List Char → Option (Toml × List Char)

/-- A key without quotes. -/
def IsBareKey (key : String) : Prop :=
  key.toList ≠ [] ∧ ∀ c ∈ key.toList, inBareKey c = true

/-- The text that sets a key to what a text says. -/
def setting (key : String) (raw : List Char) : String :=
  key ++ " = " ++ String.ofList raw

/-- Behind spaces a comment or a further line begins. -/
def Beyond (rest : List Char) : Prop :=
  ∃ more, skipSpaces rest = '#' :: more ∨ skipSpaces rest = '\n' :: more ∨
    skipSpaces rest = '\r' :: '\n' :: more

namespace Reader

variable (R : Reader)

/-- A text begins with a value, and the rest of the text stands behind it. -/
def Begins (s front rest : List Char) (v : Toml) : Prop :=
  s = front ++ rest ∧ R.value? s = some (v, rest)

/-- A text is a value and nothing besides. -/
def Expression (s : List Char) (v : Toml) : Prop :=
  R.value? s = some (v, [])

/-- What TOML says of documents and their values. -/
structure Laws : Prop where
  /-- What a text begins with is a value by itself. -/
  alone {s rest : List Char} {v : Toml} (read : R.value? s = some (v, rest)) :
    ∃ front, s = front ++ rest ∧ R.Expression front v
  /-- A key and a value are a document. -/
  pair {key : String} {s : List Char} {v : Toml} (bare : IsBareKey key) (whole : R.Expression s v) :
    R.document? (setting key s) = some [(key, v)]
  /-- In a document that begins with a key and an equals sign, the key stands for the value behind
  them, and the line ends behind this value. -/
  line {key : String} {s : List Char} {entries : List (String × Toml)} (bare : IsBareKey key)
    (flush : ∀ c ∈ s.head?, isSpace c = false)
    (parsed : R.document? (setting key s) = some entries) :
    ∃ v rest, R.value? s = some (v, rest) ∧ (skipSpaces rest = [] ∨ Beyond rest) ∧
      Dict.find? entries key = some v
  /-- A string is shorter than what it is read from. -/
  string {s rest : List Char} {text : String} (read : R.value? s = some (.string text, rest)) :
    text.length + rest.length < s.length
  /-- A date or time has no number sign and no line end in it. -/
  dateTime {s rest : List Char} {text : String} (read : R.value? s = some (.dateTime text, rest)) :
    '#' ∉ text.toList ∧ '\n' ∉ text.toList

end Reader

/-- The reader that gives tagged tables as dates and times. One unit of fuel for each character of a
text is enough. -/
def reader : Reader where
  document? := parse?
  value? s := (value? 0 s.length s).bind fun (w, rest) => (untag? w).map (·, rest)

end BraceTemplate.Toml
