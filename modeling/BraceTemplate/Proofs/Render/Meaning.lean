/-
# BraceTemplate.Proofs.Render.Meaning — a render is what its tree means

A rendered template is a region of its own (`Region.whole`). Every state of its run either belongs
to that region, with what the tree of the template means still to come, or is the last one, with
that text written (`Rendering`). So the flat program leads to the text that the tree means, or fails
with the same error (`render_eq_meaning`), and it never meets an operation that cannot be run.
-/
import BraceTemplate.Proofs.Render.Region

namespace BraceTemplate

set_option autoImplicit false

/-- The outcome of a render that leads to a text or to an error. -/
def Outcome.ofResult : Except RenderError String → Outcome
  | .ok s => .text s
  | .error e => .failed e

namespace Machine

/-- A template as it begins to be rendered. -/
def Region.whole (t : Template) : Region where
  template := t
  replaces := none
  stop := t.opCount
  outer := []
  below := []
  base := []
  start := 0
  nodes := t.nodes
  placed := t.placed
  within := Nat.le_of_eq t.opCount_eq_stop.symm
  ordered := Dict.ascending_nil

/-- A state of the rendering of a template: something of its meaning is still to be done, or all of
it is written. -/
def Rendering (t : Template) (env : Env) (s : State) : Prop :=
  (∃ position todo, (Region.whole t).Holds env position s.frames s.locals todo ∧
      todo s.output = t.meaning env) ∨
    s.frames = [] ∧ s.locals = [] ∧ t.meaning env = .ok s.output

section

variable {t : Template} {env : Env} {s : State}

theorem rendering_initial (t : Template) (env : Env) : Rendering t env (initial t) := by
  refine .inl ⟨0, _, Region.Holds.front (Region.whole t) t.program.slotCount ?_, rfl⟩
  exact Nat.zero_add _

/-- A step of the rendering of a template leads to another state of it, or to what the template
means. -/
theorem rendering_step (rendering : Rendering t env s) :
    match step env s with
    | .next u => Rendering t env u
    | .done output => t.meaning env = .ok output
    | .failed e => t.meaning env = .error e
    | .fault _ => False := by
  obtain ⟨frames, locals, output⟩ := s
  rcases rendering with ⟨position, todo, holds, same⟩ | ⟨rfl, rfl, same⟩
  · by_cases atEnd : frames.length = 1 ∧ position = 0 + sizes t.nodes
    · obtain ⟨⟨free, -, rfl⟩, rfl, rfl⟩ := holds.finished atEnd.2 atEnd.1
      rw [step_of_stop (by simp only [Region.frame, Region.whole, t.opCount_eq]; omega)]
      exact .inr ⟨rfl, rfl, same.symm⟩
    · have continues := holds.step
        (fun top => by
          have bounds := holds.bounds.2
          simp only [Region.whole, List.length_nil] at top bounds ⊢
          omega) output
      revert continues
      generalize step env ⟨frames, locals, output⟩ = outcome
      intro continues
      cases outcome with
      | next u =>
          obtain ⟨position, todo', -, holds, same'⟩ := continues
          exact .inl ⟨position, todo', holds, same'.symm.trans same⟩
      | failed e => exact same.symm.trans continues
      | done output => exact continues.elim
      | fault f => exact continues.elim
  · exact same

theorem Reached.rendering (reached : Reached t env s) : Rendering t env s := by
  obtain ⟨trace, steps⟩ := reached
  refine steps.keeps (rendering_initial t env) fun s u rendering step => ?_
  have := rendering_step rendering
  rwa [step] at this

theorem Reached.ascending (reached : Reached t env s) : s.locals.Ascending := by
  rcases reached.rendering with ⟨_, _, holds, -⟩ | ⟨-, empty, -⟩
  · exact holds.ascending
  · rw [empty]
    exact Dict.ascending_nil

end

end Machine

/-- Rendering a template leads to what its tree means. -/
theorem render_eq_meaning (t : Template) (env : Env) :
    t.render env = .ofResult (t.meaning env) := by
  obtain ⟨trace, last, steps, stays⟩ := Machine.exists_last env (Machine.initial t)
  have outcome := Machine.rendering_step (Machine.Reached.rendering ⟨trace, steps⟩)
  rw [Template.render, steps.run_eq]
  cases ended : Machine.step env last with
  | next after => exact absurd ended (stays after)
  | done output =>
      rw [ended] at outcome
      rw [Machine.run_of_done ended, outcome]
      rfl
  | failed e =>
      rw [ended] at outcome
      rw [Machine.run_of_failed ended, outcome]
      rfl
  | fault f =>
      rw [ended] at outcome
      exact outcome.elim

theorem render_eq_text_iff {t : Template} {env : Env} {s : String} :
    t.render env = .text s ↔ t.meaning env = .ok s := by
  rw [render_eq_meaning]
  cases t.meaning env with
  | ok s' => simp only [Outcome.ofResult, Outcome.text.injEq, Except.ok.injEq]
  | error e => simp only [Outcome.ofResult, reduceCtorEq]

theorem render_eq_failed_iff {t : Template} {env : Env} {e : RenderError} :
    t.render env = .failed e ↔ t.meaning env = .error e := by
  rw [render_eq_meaning]
  cases t.meaning env with
  | ok s => simp only [Outcome.ofResult, reduceCtorEq]
  | error e' => simp only [Outcome.ofResult, Outcome.failed.injEq, Except.error.injEq]

end BraceTemplate
