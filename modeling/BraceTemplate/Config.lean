/-
# BraceTemplate.Config — the configuration of a project

A configuration file is TOML with the sections `templates`, `render`, `data` and `vars`, each of
which may be missing, as may every setting in them. A section other than `vars` may be an array
that gives its settings in order. Unknown sections and settings are refused. A date in place of the
variables is one variable, named `dateTag`.
-/
import BraceTemplate.Failure
import BraceTemplate.Toml.Parser
import BraceTemplate.Value.Toml

namespace BraceTemplate

set_option autoImplicit false

/-- The settings of a project. -/
structure Config where
  /-- The directory of templates, from the directory of the configuration file. -/
  root : String
  /-- The extension of template names that have none. -/
  extension : String
  builtinModifiers : Bool
  /-- Data files in the order in which they are merged. -/
  dataFiles : List String
  /-- Variables, merged after the data files. -/
  vars : Context

namespace Config

/-- The settings that apply where none are given. -/
def standard : Config :=
  { root := ".", extension := "tmpl", builtinModifiers := true, dataFiles := []
    vars := Context.empty }

instance : Inhabited Config := ⟨standard⟩

/-- The settings of a section by name: those of a table, all of which must be known, or the items of
an array for the known names in order. A missing section has none. -/
def section? (known : List String) : Option Toml → Option (List (String × Toml))
  | none => some []
  | some (.table entries) =>
      if entries.all fun entry => known.contains entry.1 then some entries else none
  | some (.array items) => some (known.zip items)
  | some _ => none

/-- A setting read by `f`, or a default if it is missing. -/
def setting? {α : Type} (entries : List (String × Toml)) (name : String) (default : α)
    (f : Toml → Option α) : Option α :=
  match Dict.find? entries name with
  | none => some default
  | some v => f v

/-- A text setting. -/
def string? : Toml → Option String
  | .string s => some s
  | _ => none

/-- A truth value setting. -/
def boolean? : Toml → Option Bool
  | .boolean b => some b
  | _ => none

/-- A setting that lists texts. -/
def strings? : Toml → Option (List String)
  | .array items => items.mapM string?
  | _ => none

/-- Variables. -/
def vars? : Toml → Option Context
  | .table entries => (Toml.untagEntries? entries).map Context.ofToml
  | .dateTime text => some (Context.ofToml [(Toml.dateTag, .string text)])
  | _ => none

/-- The configuration that a document gives. -/
def ofToml? (document : List (String × Toml)) : Option Config := do
  let sections ← section? ["templates", "render", "data", "vars"] (some (.table document))
  let templates ← section? ["root", "extension"] (Dict.find? sections "templates")
  let render ← section? ["builtin_modifiers"] (Dict.find? sections "render")
  let data ← section? ["files"] (Dict.find? sections "data")
  let root ← setting? templates "root" standard.root string?
  let extension ← setting? templates "extension" standard.extension string?
  let builtinModifiers ← setting? render "builtin_modifiers" standard.builtinModifiers boolean?
  let dataFiles ← setting? data "files" standard.dataFiles strings?
  let vars ← setting? sections "vars" standard.vars vars?
  return { root, extension, builtinModifiers, dataFiles, vars }

/-- The configuration that the text of a file at a path gives. -/
def parse (path text : String) : Except Failure Config :=
  match (Toml.document? text).bind ofToml? with
  | none => .error (.configMalformed path)
  | some config =>
      if config.extension.toList.head? = some '.' then
        .error (.invalidValue "templates.extension" "must not start with '.'")
      else .ok config

end Config

end BraceTemplate
