/-
# BraceTemplate.Json.Parser — values from tokens

The tokens of a text are taken one by one by a machine that keeps the arrays and objects that are
open. A text is a value when the machine ends with one value and nothing open. Arrays and objects
nest to less than a given depth; of members with one key the last is kept.
-/
import BraceTemplate.Json.Token

namespace BraceTemplate.Json

set_option autoImplicit false

/-- An array or object that is not closed yet. -/
inductive Open where
  /-- The items before the current one, the latest first. -/
  | array (items : List Json)
  /-- The members before the current one and the key of the current one. -/
  | object (members : Dict Json) (key : String)

/-- What has been read, innermost first, and what may come next. -/
inductive Reading where
  /-- A value must come. -/
  | value (around : List Open)
  /-- An array has just been opened. -/
  | arrayStart (around : List Open)
  /-- An object has just been opened. -/
  | objectStart (around : List Open)
  /-- A comma has just been read in an object. -/
  | key (members : Dict Json) (around : List Open)
  /-- A key has just been read. -/
  | colon (members : Dict Json) (key : String) (around : List Open)
  /-- A value is complete. -/
  | done (value : Json) (around : List Open)

namespace Reading

/-- Begins a value; an array or object must nest to less than `limit`. -/
def start (limit : Nat) (around : List Open) : Token → Option Reading
  | .scalar v => some (.done v around)
  | .openArray => if around.length + 1 < limit then some (.arrayStart around) else none
  | .openObject => if around.length + 1 < limit then some (.objectStart around) else none
  | _ => none

/-- Takes one token. -/
def next (limit : Nat) : Reading → Token → Option Reading
  | .value around, t => start limit around t
  | .arrayStart around, .closeArray => some (.done (.array []) around)
  | .arrayStart around, t => start limit (.array [] :: around) t
  | .objectStart around, .closeObject => some (.done (.object []) around)
  | .objectStart around, .scalar (.string k) => some (.colon [] k around)
  | .key members around, .scalar (.string k) => some (.colon members k around)
  | .colon members k around, .colon => some (.value (.object members k :: around))
  | .done v (.array items :: around), .comma => some (.value (.array (v :: items) :: around))
  | .done v (.array items :: around), .closeArray =>
      some (.done (.array (v :: items).reverse) around)
  | .done v (.object members k :: around), .comma => some (.key (members.insert k v) around)
  | .done v (.object members k :: around), .closeObject =>
      some (.done (.object (members.insert k v)) around)
  | _, _ => none

end Reading

/-- The value that a text denotes, if it nests to less than `limit`. -/
def parseWithin? (limit : Nat) (text : String) : Option Json :=
  match Token.scan? text.toList with
  | none => none
  | some tokens =>
      match tokens.foldlM (Reading.next limit) (.value []) with
      | some (.done v []) => some v
      | _ => none

/-- The value that a text denotes; arrays and objects nest at most 127 deep. -/
def parse? (text : String) : Option Json :=
  parseWithin? 128 text

end BraceTemplate.Json
