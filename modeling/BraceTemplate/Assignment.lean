/-
# BraceTemplate.Assignment — variables given as `KEY=VALUE`

The text before the first equals sign is a key; dots in it lead into nested maps. The value is read
as TOML if that succeeds, and is taken as plain text otherwise. What TOML is depends on the reader.
-/
import BraceTemplate.Failure
import BraceTemplate.Text.Blank
import BraceTemplate.Text.Cut
import BraceTemplate.Toml.Reader
import BraceTemplate.Value.Toml

namespace BraceTemplate.Assignment

set_option autoImplicit false

open Text

/-- The parts of a key without the blanks around them, if none of them is empty. -/
def keyParts? (key : List Char) : Option (List String) :=
  let parts := (splitAt '.' key).map trim
  if parts.any List.isEmpty then none else some (parts.map String.ofList)

/-- The value that a text denotes for a reader of TOML: that of the key `v` in a document that sets
`v` to the text, or else the text itself. -/
def literalBy (R : Toml.Reader) (raw : List Char) : Toml :=
  match R.document? (Toml.setting "v" raw) with
  | some entries => (Dict.find? entries "v").getD (.string (String.ofList raw))
  | none => .string (String.ofList raw)

/-- A value inside maps that a path leads through. -/
def nest (v : Toml) : List String → Toml
  | [] => v
  | part :: rest => .table [(part, nest v rest)]

/-- The variables that an assignment binds, given a reader of TOML. -/
def parseBy (R : Toml.Reader) (text : String) : Except Failure Context :=
  match cutAt? (· == '=') text.toList with
  | none => .error (.invalidValue text "expected KEY=VALUE")
  | some (key, raw) =>
      match keyParts? key with
      | some (part :: rest) =>
          .ok (Context.ofToml [(part, nest (literalBy R (trim raw)) rest)])
      | _ => .error (.invalidValue text "empty key")

/-- The variables that an assignment binds. -/
def parse (text : String) : Except Failure Context :=
  parseBy Toml.reader text

end BraceTemplate.Assignment
