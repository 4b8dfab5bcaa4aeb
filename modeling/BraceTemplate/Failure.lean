/-
# BraceTemplate.Failure — why a command fails

Failures of reading, configuring, compiling and rendering, with one message each. A path is shown as
it was made up.
-/
import BraceTemplate.CompileError
import BraceTemplate.Render.Machine

namespace BraceTemplate

set_option autoImplicit false

/-- A failure. -/
inductive Failure where
  | configUnreadable (path : String)
  | configMalformed (path : String)
  | invalidValue (field reason : String)
  | dataUnreadable (path : String)
  | dataMalformed (path : String)
  /-- A JSON data file whose value is no object. -/
  | dataNotObject (path : String)
  | dataUnsupported (path : String)
  | templateUnreadable (path : String)
  | compile (error : CompileError)
  | render (error : RenderError)
  /-- A program that cannot be run; those of compiled templates can. -/
  | fault (f : Machine.Fault)
  /-- A file to which no text can be written. -/
  | unwritable (path : String)
  /-- Some of the templates of a check are not accepted. -/
  | rejected (number total : Nat)
  deriving DecidableEq, Repr

/-- The message of a failure. -/
def Failure.message : Failure → String
  | .configUnreadable path => "CONFIG_READ_ERROR: failed to read '" ++ path ++ "'"
  | .configMalformed path => "CONFIG_PARSE_ERROR: failed to parse '" ++ path ++ "'"
  | .invalidValue field reason => "CONFIG_INVALID_VALUE: " ++ field ++ ": " ++ reason
  | .dataUnreadable path => "DATA_READ_ERROR: failed to read '" ++ path ++ "'"
  | .dataMalformed path => "DATA_PARSE_ERROR: failed to parse '" ++ path ++ "'"
  | .dataNotObject path =>
      "DATA_PARSE_ERROR: failed to parse '" ++ path ++ "': top-level value must be an object"
  | .dataUnsupported path =>
      "DATA_UNSUPPORTED_FORMAT: '" ++ path ++ "' is neither .toml nor .json"
  | .templateUnreadable path => "TEMPLATE_READ_ERROR: failed to read '" ++ path ++ "'"
  | .compile error => error.message
  | .render error => error.message
  | .fault _ => "the program of a template is not well formed"
  | .unwritable path => "failed to write '" ++ path ++ "'"
  | .rejected number total =>
      toString number ++ " of " ++ toString total ++ " template(s) failed to compile"

end BraceTemplate
