/-
# BraceTemplate.Settings — a configuration in its place

Relative paths in a configuration start from a base directory: that of the configuration file, or
the directory in which none was found. A template is named by an existing file or by a name in the
directory of templates.
-/
import BraceTemplate.Builtins
import BraceTemplate.Config
import BraceTemplate.Data
import BraceTemplate.Render

namespace BraceTemplate

set_option autoImplicit false

/-- A configuration and the directory that its paths start from. -/
structure Settings where
  baseDir : String
  config : Config

namespace Settings

/-- The name of configuration files. -/
def fileName : String := "stencil.toml"

/-- The standard settings in a directory. -/
def standard (baseDir : String) : Settings :=
  ⟨baseDir, Config.standard⟩

/-- The directory of templates. -/
def templatesDir (s : Settings) : String :=
  Path.join s.baseDir s.config.root

/-- The modifiers that templates may use. -/
def modifiers (s : Settings) : Modifiers :=
  if s.config.builtinModifiers then Builtins.modifiers else []

/-- Renders a template without callables. -/
def render (s : Settings) (t : Template) (globals : Context) (overrides : Overrides) : Outcome :=
  t.render { globals, modifiers := s.modifiers, callables := [], overrides }

variable {m : Type → Type} [Monad m]

/-- The configuration in a file. -/
def loadConfig (files : Files m) (path : String) : ExceptT Failure m Config := do
  match ← files.read path with
  | none => throw (.configUnreadable path)
  | some text => ExceptT.mk (pure (Config.parse path text))

/-- The settings in a file. -/
def load (files : Files m) (path : String) : ExceptT Failure m Settings := do
  let config ← loadConfig files path
  return ⟨(Path.parent? path).getD ".", config⟩

/-- The first path of a list that leads to a file. -/
def firstFile? (files : Files m) : List String → m (Option String)
  | [] => return none
  | path :: rest => do
      if ← files.isFile path then return some path
      else firstFile? files rest

/-- The configuration file in a directory or the nearest one above it. -/
def find? (files : Files m) (start : String) : m (Option String) :=
  firstFile? files ((Path.ancestors start).map fun dir => Path.join dir fileName)

/-- The settings in the file found from a directory, or the standard ones in that directory. -/
def discover (files : Files m) (start : String) : ExceptT Failure m Settings := do
  match ← ExceptT.lift (find? files start) with
  | some path => load files path
  | none => return standard start

/-- The path of a template: a name that leads to a file stands for it; any other is a name in the
directory of templates, with the extension added if it has none. -/
def templatePath (s : Settings) (files : Files m) (name : String) : m String := do
  if ← files.isFile name then return name
  let path := Path.join s.templatesDir name
  match Path.extension? path with
  | some _ => return path
  | none => return Path.withExtension path s.config.extension

/-- The template in a file, named by its path. -/
def templateFile (files : Files m) (path : String) : ExceptT Failure m Template := do
  match ← files.read path with
  | none => throw (.templateUnreadable path)
  | some source => ExceptT.mk (pure ((Template.compile path source).mapError .compile))

/-- The template of a name. -/
def loadTemplate (s : Settings) (files : Files m) (name : String) : ExceptT Failure m Template := do
  templateFile files (← ExceptT.lift (s.templatePath files name))

/-- The variables of the data files and the variables in the configuration, in this order. -/
def baseContext (s : Settings) (files : Files m) : ExceptT Failure m Context := do
  let data ← Data.loadAll files (s.config.dataFiles.map (Path.join s.baseDir))
  return data.merge s.config.vars

end Settings

end BraceTemplate
