/-
# BraceTemplate.Command.Job — what a render command renders

A job is gathered from the settings, the data files, the assignments and the templates that a
command names, before anything is rendered. Its variables come from the configuration, then from
the data files named on the command line, then from each assignment.
-/
import BraceTemplate.Assignment
import BraceTemplate.Command
import BraceTemplate.Settings

namespace BraceTemplate

set_option autoImplicit false

/-- What a render command renders. -/
structure Job where
  settings : Settings
  context : Context
  template : Template
  layout : Option Template

namespace Job

/-- The settings of a command, with the built-in modifiers left out if it asks so. -/
def settingsFor (s : Settings) (r : RenderRequest) : Settings :=
  if r.withoutBuiltins then { s with config := { s.config with builtinModifiers := false } } else s

/-- Variables with those of assignments merged, one assignment after the other. -/
def assignAll (c : Context) (assignments : List String) : Except Failure Context :=
  assignments.foldlM (fun c text => (Assignment.parse text).map c.merge) c

variable {m : Type → Type} [Monad m]

/-- The variables of a render: those of the settings, then those of the data files, which are merged
with each other first, then those of the assignments. -/
def gatherContext (files : Files m) (s : Settings) (r : RenderRequest) :
    ExceptT Failure m Context := do
  let base ← s.baseContext files
  let data ← Data.loadAll files r.dataFiles
  ExceptT.mk (pure (assignAll (base.merge data) r.assignments))

/-- The job of a command under settings. -/
def gather (files : Files m) (s : Settings) (r : RenderRequest) : ExceptT Failure m Job := do
  let settings := settingsFor s r
  let context ← gatherContext files settings r
  let template ← settings.loadTemplate files r.template
  let layout ← match r.layout with
    | none => pure none
    | some name => some <$> settings.loadTemplate files name
  return { settings, context, template, layout }

/-- Renders the template, or the layout with the blocks of the template in place of its own. -/
def run (job : Job) : Outcome :=
  match job.layout with
  | none => job.settings.render job.template job.context []
  | some layout =>
      job.settings.render layout job.context (Overrides.extend [] job.template)

/-- What a job says about itself before it is run. -/
def announcement (job : Job) : String :=
  match job.layout with
  | none => "→ Rendering '" ++ job.template.name ++ "'\n"
  | some layout =>
      "→ Rendering '" ++ job.template.name ++ "' into layout '" ++ layout.name ++ "'\n"

end Job

end BraceTemplate
