/-
# BraceTemplate.Render — rendering templates

`Template.render` runs the program of a template to its end. The outcome is the text, the first
error, or a fault; a failed render produces no text.
-/
import BraceTemplate.Render.Termination

namespace BraceTemplate

set_option autoImplicit false

/-- What a render leads to. -/
inductive Outcome where
  | text (s : String)
  | failed (error : RenderError)
  /-- An operation could not be run at all. -/
  | fault (f : Machine.Fault)

namespace Machine

/-- A state of a run in an environment, ordered by what comes later. -/
structure Running (env : Env) where
  state : State

instance (env : Env) : WellFoundedRelation (Running env) where
  rel after before := Next env after.state before.state
  wf := InvImage.wf Running.state (next_wf env)

/-- Runs to the end. -/
def run (env : Env) (s : State) : Outcome :=
  match h : step env s with
  | .next after =>
      have : Next env after s := h
      run env after
  | .done output => .text output
  | .failed error => .failed error
  | .fault f => .fault f
  termination_by (⟨s⟩ : Running env)

end Machine

/-- Renders a template. -/
def Template.render (t : Template) (env : Env) : Outcome :=
  Machine.run env (Machine.initial t)

end BraceTemplate
