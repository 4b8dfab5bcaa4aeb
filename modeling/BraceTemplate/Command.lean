/-
# BraceTemplate.Command — what the command line can ask for

A request is one of three commands together with what applies to all of them. `Stop` says why a
command line is no request.
-/

namespace BraceTemplate

set_option autoImplicit false

/-- What a render command asks for. -/
structure RenderRequest where
  /-- The name of the template. -/
  template : String
  /-- Data files whose variables come before those of the assignments. -/
  dataFiles : List String
  assignments : List String
  /-- The template to render with the blocks of the named one in place of its own. -/
  layout : Option String
  /-- The file for the text, if it is not to be printed. -/
  output : Option String
  /-- Whether to do without the built-in modifiers, whatever the configuration says. -/
  withoutBuiltins : Bool
  deriving DecidableEq, Repr

/-- The commands. -/
inductive Command where
  | render (request : RenderRequest)
  /-- Compiles templates and reports on each. -/
  | check (templates : List String)
  /-- Lists the blocks of a template. -/
  | blocks (template : String) (json : Bool)
  deriving DecidableEq, Repr

/-- A command and what applies to all commands. -/
structure Request where
  verbose : Bool
  /-- The configuration file, if it is not to be found from the current directory. -/
  config : Option String
  command : Command
  deriving DecidableEq, Repr

/-- Why a command line is no request. -/
inductive Stop where
  | help
  | version
  | invalid
  deriving DecidableEq, Repr

end BraceTemplate
