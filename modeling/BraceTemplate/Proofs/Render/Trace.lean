/-
# BraceTemplate.Proofs.Render.Trace — the states of a run

`Steps env s trace u` says that a run leads from `s` to `u` and passes through the states of `trace`
before. A run always comes to a last state (`exists_last`), and it is determined by its first one.
What a step keeps, a run keeps (`Steps.keeps`).
-/
import BraceTemplate.Render

namespace BraceTemplate.Machine

set_option autoImplicit false

/-- A frame whose range is done is left. -/
theorem step_of_stop {env : Env} {f : Frame} {rest : List Frame} {locals : Dict Value}
    {output : String} (finished : f.stop ≤ f.ip) :
    step env ⟨f :: rest, locals, output⟩ = .next ⟨rest, locals, output⟩ := by
  rw [step, if_neg (Nat.not_lt.2 finished)]

theorem step_of_go {env : Env} {f : Frame} {rest : List Frame} {locals locals' : Dict Value}
    {output added : String} {instr : Instr} {ip : Nat} {slots : List Slot} (running : f.ip < f.stop)
    (found : f.template.program.instrs[f.ip]? = some instr)
    (runs : exec env (active (f :: rest)) f.ip f.slots locals output instr.op =
      .go ip slots locals' added) :
    step env ⟨f :: rest, locals, output⟩ =
      .next ⟨{ f with ip, slots } :: rest, locals', output ++ added⟩ := by
  rw [step, if_pos running, found]
  simp only [runs]

theorem step_of_enter {env : Env} {f : Frame} {rest : List Frame} {locals : Dict Value}
    {output name : String} {instr : Instr} {body : Override} {resume : Nat}
    (running : f.ip < f.stop) (found : f.template.program.instrs[f.ip]? = some instr)
    (enters : exec env (active (f :: rest)) f.ip f.slots locals output instr.op =
      .enter name body resume) :
    step env ⟨f :: rest, locals, output⟩ =
      .next ⟨Frame.start body.template (some name) body.range :: { f with ip := resume } :: rest,
        locals, output⟩ := by
  rw [step, if_pos running, found]
  simp only [enters]

theorem step_of_fail {env : Env} {f : Frame} {rest : List Frame} {locals : Dict Value}
    {output : String} {instr : Instr} {cause : RenderError.Cause} (running : f.ip < f.stop)
    (found : f.template.program.instrs[f.ip]? = some instr)
    (fails : exec env (active (f :: rest)) f.ip f.slots locals output instr.op = .fail cause) :
    step env ⟨f :: rest, locals, output⟩ =
      .failed ⟨f.template.name, f.ip, instr.line, cause⟩ := by
  rw [step, if_pos running, found]
  simp only [fails]

/-- What a step to another state does: it leaves a frame whose range is done, or it runs an
operation of the innermost frame, which goes on or waits for an override that is begun. -/
theorem next_cases {env : Env} {f : Frame} {rest : List Frame} {locals : Dict Value}
    {output : String} {u : State} (next : step env ⟨f :: rest, locals, output⟩ = .next u) :
    f.stop ≤ f.ip ∧ u = ⟨rest, locals, output⟩ ∨
      f.ip < f.stop ∧ ∃ instr, f.template.program.instrs[f.ip]? = some instr ∧
        ((∃ ip slots locals' added,
            exec env (active (f :: rest)) f.ip f.slots locals output instr.op =
              .go ip slots locals' added ∧
            u = ⟨{ f with ip, slots } :: rest, locals', output ++ added⟩) ∨
          ∃ name body resume,
            exec env (active (f :: rest)) f.ip f.slots locals output instr.op =
              .enter name body resume ∧
            u = ⟨Frame.start body.template (some name) body.range ::
              { f with ip := resume } :: rest, locals, output⟩) := by
  simp only [step] at next
  split at next
  · rename_i running
    right
    split at next
    · cases next
    · rename_i instr found
      refine ⟨running, instr, found, ?_⟩
      split at next
      · rename_i ip slots locals' added runs
        obtain rfl := Step.next.inj next
        exact .inl ⟨ip, slots, locals', added, runs, rfl⟩
      · rename_i name body resume runs
        obtain rfl := Step.next.inj next
        exact .inr ⟨name, body, resume, runs, rfl⟩
      · cases next
      · cases next
  · rename_i finished
    obtain rfl := Step.next.inj next
    exact .inl ⟨Nat.le_of_not_lt finished, rfl⟩

/-- A step that fails runs an operation of the innermost frame, and the error names it. -/
theorem failed_cases {env : Env} {f : Frame} {rest : List Frame} {locals : Dict Value}
    {output : String} {e : RenderError}
    (failed : step env ⟨f :: rest, locals, output⟩ = .failed e) :
    f.ip < f.stop ∧ ∃ instr cause, f.template.program.instrs[f.ip]? = some instr ∧
      exec env (active (f :: rest)) f.ip f.slots locals output instr.op = .fail cause ∧
      e = ⟨f.template.name, f.ip, instr.line, cause⟩ := by
  simp only [step] at failed
  split at failed
  · rename_i running
    split at failed
    · cases failed
    · rename_i instr found
      refine ⟨running, instr, ?_⟩
      split at failed
      · cases failed
      · cases failed
      · rename_i cause runs
        exact ⟨cause, found, runs, (Step.failed.inj failed).symm⟩
      · cases failed
  · cases failed

/-- A run leads from one state to another; the trace lists the states before the last one. -/
inductive Steps (env : Env) : State → List State → State → Prop where
  | refl (s : State) : Steps env s [] s
  | next {s t u : State} {trace : List State} (step : Machine.step env s = .next t)
      (later : Steps env t trace u) : Steps env s (s :: trace) u

/-- A state comes up while a template is rendered. -/
def Reached (t : Template) (env : Env) (s : State) : Prop :=
  ∃ trace, Steps env (initial t) trace s

/-- The run from a state leads to a goal, or to an operation that fails; something holds of all
states that it passes through before. -/
def LeadsTo (env : Env) (s : State) (before goal : State → Prop) : Prop :=
  ∃ trace u, Steps env s trace u ∧ (∀ w ∈ trace, before w) ∧
    (goal u ∨ ∃ e, step env u = .failed e)

/-- The innermost frame is at a position, with a number of frames below it. -/
def State.isAt (below ip : Nat) (s : State) : Bool :=
  match s.frames with
  | [] => false
  | f :: rest => rest.length == below && f.ip == ip

/-- The state after a number of steps, if a run gets that far. -/
def after? (env : Env) : Nat → State → Option State
  | 0, s => some s
  | n + 1, s =>
      match step env s with
      | .next t => after? env n t
      | .done _ | .failed _ | .fault _ => none

/-- The operation that a state runs next, with the frame that runs it and those below. -/
structure State.Executes (s : State) (f : Frame) (rest : List Frame) (op : Op) : Prop where
  top : s.frames = f :: rest
  running : f.ip < f.stop
  found : ∃ line, f.template.program.instrs[f.ip]? = some ⟨op, line⟩

section

variable {env : Env} {s u : State} {trace : List State}

/-- What holds in the first state and is kept by every step holds in the last one. -/
theorem Steps.keeps {P : State → Prop} (steps : Steps env s trace u) (first : P s)
    (kept : ∀ s t : State, P s → step env s = .next t → P t) : P u := by
  induction steps with
  | refl => exact first
  | next step _ ih => exact ih (kept _ _ first step)

theorem Steps.trans {t : State} {earlier later : List State} (first : Steps env s earlier t)
    (second : Steps env t later u) : Steps env s (earlier ++ later) u := by
  induction first with
  | refl => exact second
  | next step _ ih => exact .next step (ih second)

theorem steps_of_after? {n : Nat} (after : after? env n s = some u) :
    ∃ trace, Steps env s trace u := by
  induction n generalizing s with
  | zero =>
      obtain rfl := Option.some.inj after
      exact ⟨[], .refl s⟩
  | succ n ih =>
      rw [after?] at after
      split at after
      · rename_i t step
        obtain ⟨trace, steps⟩ := ih after
        exact ⟨s :: trace, .next step steps⟩
      all_goals cases after

/-- Every run comes to an end. -/
theorem exists_last (env : Env) (s : State) :
    ∃ trace u, Steps env s trace u ∧ ∀ t, step env u ≠ .next t := by
  induction s using (next_wf env).induction with
  | _ s ih =>
    by_cases more : ∃ t, step env s = .next t
    · obtain ⟨t, step⟩ := more
      obtain ⟨trace, u, steps, last⟩ := ih t step
      exact ⟨s :: trace, u, .next step steps, last⟩
    · exact ⟨[], s, .refl s, fun t step => more ⟨t, step⟩⟩

theorem run_of_next {t : State} (step : step env s = .next t) : run env s = run env t := by
  rw [run]
  split <;> simp_all

theorem run_of_done {output : String} (step : step env s = .done output) :
    run env s = .text output := by
  rw [run]
  split <;> simp_all

theorem run_of_failed {e : RenderError} (step : step env s = .failed e) :
    run env s = .failed e := by
  rw [run]
  split <;> simp_all

theorem run_of_fault {f : Fault} (step : step env s = .fault f) : run env s = .fault f := by
  rw [run]
  split <;> simp_all

theorem Steps.run_eq (steps : Steps env s trace u) : run env s = run env u := by
  induction steps with
  | refl => rfl
  | next step _ ih => rw [run_of_next step, ih]

end

end BraceTemplate.Machine
