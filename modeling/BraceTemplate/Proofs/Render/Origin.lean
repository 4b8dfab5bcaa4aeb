/-
# BraceTemplate.Proofs.Render.Origin — whose operation fails

An error names a template, but that name does not tell whether an operation of the rendered template
failed or one of an override, which may come from a template of the same name. The frame of the
operation does: only the frame of the rendered template replaces no block.

A render does not read the name of its template. Under another name it passes through the same
states (`Steps.renamed`), and it fails with the same error, which has the other name exactly if the
operation is the template's own (`failed_of_render`).
-/
import BraceTemplate.Proofs.Render.Trace

namespace BraceTemplate

set_option autoImplicit false

/-- A template under another name. -/
def Template.renamed (name : String) (t : Template) : Template :=
  { t with name }

theorem Template.renamed_self (t : Template) : t.renamed t.name = t :=
  rfl

namespace Machine

/-- A frame with the rendered template under another name. -/
def Frame.renamed (name : String) (f : Frame) : Frame :=
  { f with template := if f.replaces = none then f.template.renamed name else f.template }

/-- A state with the rendered template under another name. -/
def State.renamed (name : String) (s : State) : State :=
  { s with frames := s.frames.map (Frame.renamed name) }

section

variable (name : String)

theorem Frame.program_renamed (f : Frame) :
    (f.renamed name).template.program = f.template.program := by
  rw [renamed]
  split <;> rfl

theorem active_renamed (frames : List Frame) :
    active (frames.map (Frame.renamed name)) = active frames :=
  List.filterMap_map ..

theorem initial_renamed (t : Template) : initial (t.renamed name) = (initial t).renamed name :=
  rfl

variable {env : Env} {s u : State} {trace : List State}

/-- A step does not read the name of the rendered template. -/
theorem step_renamed (next : step env s = .next u) :
    step env (s.renamed name) = .next (u.renamed name) := by
  obtain ⟨frames, locals, output⟩ := s
  cases frames with
  | nil => cases next
  | cons f rest =>
      have same : active (f.renamed name :: rest.map (Frame.renamed name)) = active (f :: rest) :=
        active_renamed name (f :: rest)
      rcases next_cases next with ⟨finished, rfl⟩ | ⟨running, instr, found, moves⟩
      · exact step_of_stop finished
      rw [← f.program_renamed name] at found
      rw [← same] at moves
      rcases moves with ⟨ip, slots, locals', added, runs, rfl⟩ | ⟨block, o, resume, enters, rfl⟩
      · exact step_of_go running found runs
      · exact step_of_enter running found enters

theorem Steps.renamed (steps : Steps env s trace u) :
    Steps env (s.renamed name) (trace.map (State.renamed name)) (u.renamed name) := by
  induction steps with
  | refl => exact .refl _
  | next step _ ih => exact .next (step_renamed name step) ih

/-- A step that fails does so under another name, which the error has if the operation is one of
the rendered template. -/
theorem failed_renamed {f : Frame} {rest : List Frame} {e : RenderError}
    (top : s.frames = f :: rest) (failed : step env s = .failed e) :
    step env (s.renamed name) =
      .failed (if f.replaces = none then { e with template := name } else e) := by
  obtain ⟨frames, locals, output⟩ := s
  obtain rfl : frames = _ := top
  have same : active (f.renamed name :: rest.map (Frame.renamed name)) = active (f :: rest) :=
    active_renamed name (f :: rest)
  obtain ⟨running, instr, cause, found, fails, rfl⟩ := failed_cases failed
  rw [← f.program_renamed name] at found
  rw [← same] at fails
  have again : step env (State.renamed name ⟨f :: rest, locals, output⟩) =
      .failed ⟨(f.renamed name).template.name, f.ip, instr.line, cause⟩ :=
    step_of_fail running found fails
  rw [again]
  by_cases own : f.replaces = none
  · simp only [Frame.renamed, if_pos own]
    rfl
  · simp only [Frame.renamed, if_neg own]

end

/-- A render that fails comes to a state in which an operation fails. Under another name of the
template it fails in the same way, and the error has this name if the operation is one of the
rendered template. -/
theorem failed_of_render {t : Template} {env : Env} {e : RenderError}
    (fails : t.render env = .failed e) :
    ∃ last f rest, Reached t env last ∧ last.frames = f :: rest ∧ step env last = .failed e ∧
      ∀ name, (t.renamed name).render env =
        .failed (if f.replaces = none then { e with template := name } else e) := by
  obtain ⟨trace, last, steps, stays⟩ := exists_last env (initial t)
  rw [Template.render, steps.run_eq] at fails
  have failed : step env last = .failed e := by
    cases outcome : step env last with
    | next u => exact absurd outcome (stays u)
    | done output =>
        rw [run_of_done outcome] at fails
        cases fails
    | failed e' =>
        rw [run_of_failed outcome] at fails
        rw [Outcome.failed.inj fails]
    | fault f =>
        rw [run_of_fault outcome] at fails
        cases fails
  obtain ⟨frames, locals, output⟩ := last
  cases frames with
  | nil => cases failed
  | cons f rest =>
      refine ⟨_, f, rest, ⟨trace, steps⟩, rfl, failed, fun name => ?_⟩
      rw [Template.render, initial_renamed, (steps.renamed name).run_eq,
        run_of_failed (failed_renamed name rfl failed)]

end Machine

end BraceTemplate
