/-
# BraceTemplate.Builtins — the built-in modifiers

Text modifiers take the text of any scalar and refuse values that have none.
-/
import BraceTemplate.Json.Printer
import BraceTemplate.Registry
import BraceTemplate.Text.Blank
import BraceTemplate.Text.Case
import BraceTemplate.Text.Html
import BraceTemplate.Value.Json

namespace BraceTemplate.Builtins

set_option autoImplicit false

/-- A modifier that transforms the text of a scalar. -/
def onText (f : String → String) : Modifier := fun v =>
  match v.text? with
  | some s => .ok (.string (f s))
  | none => .error ("expected text, found " ++ v.kind)

/-- The number of characters, items or entries. -/
def length : Modifier
  | .string s => .ok (Value.ofNat s.length)
  | .list items => .ok (Value.ofNat items.length)
  | .map entries => .ok (Value.ofNat entries.length)
  | v => .error ("length of " ++ v.kind ++ " is undefined")

/-- The JSON text of a value. -/
def json : Modifier := fun v =>
  .ok (.string v.toJson.text)

/-- The built-in modifiers. -/
def modifiers : Modifiers :=
  Dict.ofEntries
    [("upper", onText Text.upper), ("lower", onText Text.lower), ("trim", onText Text.trimmed),
      ("capitalize", onText Text.capitalize), ("length", length), ("escape", onText Text.html),
      ("json", json)]

end BraceTemplate.Builtins
