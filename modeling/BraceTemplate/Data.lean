/-
# BraceTemplate.Data — variables from data files

The extension of a data file, in any case, says whether it is TOML or JSON; any other is refused
before the file is read. A JSON file must hold an object.
-/
import BraceTemplate.Failure
import BraceTemplate.Files
import BraceTemplate.Files.Path
import BraceTemplate.Json.Parser
import BraceTemplate.Toml.Parser
import BraceTemplate.Value.Toml

namespace BraceTemplate.Data

set_option autoImplicit false

/-- The formats of data files. -/
inductive Format where
  | toml
  | json
  deriving DecidableEq, Repr

/-- The format that the extension of a path stands for. -/
def format? (path : String) : Option Format :=
  match (Path.extension? path).map fun e => String.ofList (e.toList.map Char.toLower) with
  | some "toml" => some .toml
  | some "json" => some .json
  | _ => none

/-- The variables that the text of a file at a path gives. -/
def parse (path : String) (format : Format) (text : String) : Except Failure Context :=
  match format with
  | .toml =>
      match Toml.parse? text with
      | some entries => .ok (Context.ofToml entries)
      | none => .error (.dataMalformed path)
  | .json =>
      match Json.parse? text with
      | none => .error (.dataMalformed path)
      | some j =>
          match Context.ofJson? j with
          | some c => .ok c
          | none => .error (.dataNotObject path)

variable {m : Type → Type} [Monad m]

/-- The variables of a data file. -/
def load (files : Files m) (path : String) : ExceptT Failure m Context := do
  match format? path with
  | none => throw (.dataUnsupported path)
  | some format =>
      match ← files.read path with
      | none => throw (.dataUnreadable path)
      | some text => ExceptT.mk (pure (parse path format text))

/-- The variables of data files, merged in order. -/
def loadAll (files : Files m) (paths : List String) : ExceptT Failure m Context :=
  paths.foldlM (fun c path => return c.merge (← load files path)) Context.empty

end BraceTemplate.Data
