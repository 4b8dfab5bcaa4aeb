/-
# BraceTemplate.Text.Html — text inside HTML

The characters that could end a text or an attribute value are written as entities.
-/

namespace BraceTemplate.Text

set_option autoImplicit false

/-- A character as it is written in HTML text and attribute values. -/
def htmlChar (c : Char) : List Char :=
  match c with
  | '&' => ['&', 'a', 'm', 'p', ';']
  | '<' => ['&', 'l', 't', ';']
  | '>' => ['&', 'g', 't', ';']
  | '"' => ['&', 'q', 'u', 'o', 't', ';']
  | '\'' => ['&', '#', 'x', '2', '7', ';']
  | '/' => ['&', '#', 'x', '2', 'F', ';']
  | c => [c]

/-- A text as it is written in HTML. -/
def html (s : String) : String :=
  String.ofList (s.toList.flatMap htmlChar)

end BraceTemplate.Text
