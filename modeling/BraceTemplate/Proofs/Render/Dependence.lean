/-
# BraceTemplate.Proofs.Render.Dependence — what a render depends on

The operations of a template and, for each block that one of them begins, those of the override of
this block are reachable (`Template.Reachable`). Environments that agree on the names in all
reachable operations (`Op.Agrees`) lead to the same outcome: their runs go through the same states.

* `Op.Agrees.exec_eq`: an operation does the same in environments that agree on its names;
* `Reached.covered`: every frame of a run has only reachable operations in its range;
* `Reached.step_eq`: so both environments make the same step from every state of a run.
-/
import Mathlib
import BraceTemplate.Proofs.Render.Agreement
import BraceTemplate.Proofs.Render.Slots

namespace BraceTemplate

set_option autoImplicit false

/-- The operations of a template, and those of the override of every block that one of them
begins. -/
inductive Template.Reachable (t : Template) (overrides : Overrides) : Op → Prop where
  | own {i line : Nat} {op : Op} (found : t.program.instrs[i]? = some ⟨op, line⟩) :
      Reachable t overrides op
  | replaced {name : String} {endAt i line : Nat} {o : Override} {op : Op}
      (begins : Reachable t overrides (.beginBlock name endAt))
      (registered : overrides.find? name = some o) (after : o.range.start ≤ i)
      (before : i < o.range.stop) (found : o.template.program.instrs[i]? = some ⟨op, line⟩) :
      Reachable t overrides op

/-- The expressions of an operation. -/
def Op.exprs : Op → List Expr
  | .output expr => [expr]
  | .call _ arguments => arguments.map Prod.snd
  | .beginIf condition _ _ _ => [condition]
  | .beginFor _ collection _ _ => [collection]
  | .text _ | .orElse _ _ | .endIf _ | .endFor _ _ | .beginBlock _ _ | .endBlock => []

/-- Environments have the same variables, modifiers, callables and overrides under the names of an
operation. -/
structure Op.Agrees (env env' : Env) (op : Op) : Prop where
  exprs : ∀ e ∈ op.exprs, e.Agrees env env'
  callable : ∀ name arguments, op = .call name arguments →
    env.callables.find? name = env'.callables.find? name
  override : ∀ name endAt, op = .beginBlock name endAt →
    env.overrides.find? name = env'.overrides.find? name

/-! ## One operation -/

open Machine in
/-- An operation does the same in environments that agree on its names. -/
theorem Op.Agrees.exec_eq {env env' : Env} {op : Op} (agrees : op.Agrees env env')
    (active : List String) (ip : Nat) (slots : List Slot) (locals : Dict Value) (output : String) :
    exec env active ip slots locals output op = exec env' active ip slots locals output op := by
  cases op with
  | text | orElse | endIf | endFor | endBlock => rfl
  | output expr =>
      have same := agrees.exprs expr List.mem_cons_self
      simp only [exec, same.output_eq]
  | call name arguments =>
      have same : ∀ argument ∈ arguments, argument.2.Agrees env env' := by
        intro argument mem
        apply agrees.exprs
        exact List.mem_map_of_mem mem
      simp only [exec, Env.call_congr (agrees.callable name arguments rfl) same]
  | beginIf condition slot elseAt endAt =>
      have same := agrees.exprs condition List.mem_cons_self
      simp only [exec, same.holds_eq]
  | beginFor item collection slot endAt =>
      have same := agrees.exprs collection List.mem_cons_self
      simp only [exec, same.items_eq]
  | beginBlock name endAt =>
      have same : env.override? active name = env'.override? active name := by
        rw [Env.override?, Env.override?, agrees.override name endAt rfl]
      simp only [exec, same]

namespace Machine

variable {t : Template} {env env' : Env} {s u : State}

/-! ## The operations of a run -/

/-- All operations of the range that a frame runs are reachable. -/
def Frame.Covered (t : Template) (env : Env) (f : Frame) : Prop :=
  ∀ range, f.RunsRange t env range → ∀ i op line, range.start ≤ i → i < range.stop →
    f.template.program.instrs[i]? = some ⟨op, line⟩ → t.Reachable env.overrides op

/-- The operation that a frame runs next. -/
theorem Frame.Covered.reachable {f : Frame} (covered : f.Covered t env)
    (inRange : ∃ range, f.RunsRange t env range ∧ f.InRange range) (running : f.ip < f.stop)
    {instr : Instr} (found : f.template.program.instrs[f.ip]? = some instr) :
    t.Reachable env.overrides instr.op := by
  obtain ⟨range, runs, inRange⟩ := inRange
  have before : f.ip < range.stop := inRange.stop ▸ running
  exact covered range runs f.ip instr.op instr.line inRange.after before found

/-- A frame that begins an override is covered if the block is reachable that it replaces. -/
theorem Frame.covered_start {name : String} {endAt : Nat} {o : Override}
    (begins : t.Reachable env.overrides (.beginBlock name endAt))
    (registered : env.overrides.find? name = some o) :
    (Frame.start o.template (some name) o.range).Covered t env := by
  intro range runs i op line after before found
  cases runs with
  | rendered _ replaces => cases replaces
  | override registered' _ replaces =>
      obtain rfl := Option.some.inj replaces
      obtain rfl := Option.some.inj (registered.symm.trans registered')
      exact .replaced begins registered after before found

theorem covered_step (reached : Reached t env s) (covered : ∀ f ∈ s.frames, f.Covered t env)
    (next : step env s = .next u) : ∀ f ∈ u.frames, f.Covered t env := by
  have inRange := reached.inRange
  obtain ⟨frames, locals, output⟩ := s
  cases frames with
  | nil => cases next
  | cons f rest =>
      rw [List.forall_mem_cons] at covered inRange
      rcases next_cases next with ⟨-, rfl⟩ | ⟨running, instr, found, moves⟩
      · exact covered.2
      · -- Which range a frame runs depends on its template and the block it replaces alone.
        have stays : ∀ ip slots, ({ f with ip, slots } : Frame).Covered t env := by
          intro ip slots range runs
          apply covered.1 range
          cases runs with
          | rendered template replaces => exact .rendered template replaces
          | override registered template replaces => exact .override registered template replaces
        rcases moves with ⟨ip, slots, locals', added, -, rfl⟩ | ⟨name, o, resume, enters, rfl⟩
        · exact List.forall_mem_cons.2 ⟨stays ip slots, covered.2⟩
        · obtain ⟨⟨endAt, begins⟩, -, chosen⟩ := enter_of_exec enters
          have reachable := covered.1.reachable inRange.1 running found
          rw [begins] at reachable
          have registered := (Env.override?_eq_some.1 chosen).2
          exact List.forall_mem_cons.2 ⟨Frame.covered_start reachable registered,
            List.forall_mem_cons.2 ⟨stays resume f.slots, covered.2⟩⟩

/-- Every frame of a run has only reachable operations in its range. -/
theorem Reached.covered (reached : Reached t env s) : ∀ f ∈ s.frames, f.Covered t env := by
  obtain ⟨trace, steps⟩ := reached
  have first : ∀ f ∈ (initial t).frames, f.Covered t env := by
    intro f mem range runs i op line _ _ found
    obtain rfl := List.mem_singleton.1 mem
    exact .own found
  have both : Reached t env s ∧ ∀ f ∈ s.frames, f.Covered t env := by
    refine steps.keeps (P := fun s => Reached t env s ∧ ∀ f ∈ s.frames, f.Covered t env)
      ⟨⟨[], .refl _⟩, first⟩ ?_
    rintro s u ⟨⟨trace, steps⟩, covered⟩ next
    exact ⟨⟨_, steps.trans (.next next (.refl u))⟩, covered_step ⟨trace, steps⟩ covered next⟩
  exact both.2

/-! ## Two runs in lockstep -/

/-- Environments that agree on all reachable operations make the same step from every state of a
run. -/
theorem Reached.step_eq (reached : Reached t env s)
    (agree : ∀ op, t.Reachable env.overrides op → op.Agrees env env') :
    step env s = step env' s := by
  have covered := reached.covered
  have inRange := reached.inRange
  obtain ⟨frames, locals, output⟩ := s
  cases frames with
  | nil => rfl
  | cons f rest =>
      rw [List.forall_mem_cons] at covered inRange
      simp only [step]
      split
      · rename_i running
        cases found : f.template.program.instrs[f.ip]? with
        | none => rfl
        | some instr =>
            have agrees := agree instr.op (covered.1.reachable inRange.1 running found)
            simp only [agrees.exec_eq]
      · rfl

/-- Runs that make the same steps have the same outcome. -/
theorem run_congr (same : ∀ trace w, Steps env s trace w → step env w = step env' w) :
    run env s = run env' s := by
  induction s using (next_wf env).induction with
  | _ s ih =>
      have here := same [] s (.refl s)
      cases outcome : step env s with
      | next u =>
          rw [run_of_next outcome, run_of_next (here.symm.trans outcome)]
          apply ih u outcome
          intro trace w steps
          exact same (s :: trace) w (.next outcome steps)
      | done output => rw [run_of_done outcome, run_of_done (here.symm.trans outcome)]
      | failed e => rw [run_of_failed outcome, run_of_failed (here.symm.trans outcome)]
      | fault f => rw [run_of_fault outcome, run_of_fault (here.symm.trans outcome)]

end Machine

/-- **A render depends only on the names that its reachable operations mention.** Where two
environments agree on the global variables, modifiers, callables and overrides under these names, a
global variable without a value counting as none, they lead to the same text or the same error. -/
theorem render_eq_of_agrees {t : Template} {env env' : Env}
    (agree : ∀ op, t.Reachable env.overrides op → op.Agrees env env') :
    t.render env = t.render env' := by
  apply Machine.run_congr
  intro trace w steps
  have reached : Machine.Reached t env w := ⟨trace, steps⟩
  exact reached.step_eq agree

/-- An override with a block in it, and a loop whose item hides a global variable without a value;
other variables, modifiers, callables and overrides do not matter. -/
theorem render_eq_of_agrees_override :
    let o := Override.whole (.ofNodes "block:b" [.block 1 "c" [.output 1 ⟨"y", [], []⟩] 1])
    let t := Template.ofNodes "page" [.block 1 "b" [] 1,
      .loop 1 "x" ⟨"xs", [], []⟩ [.output 1 ⟨"x", [], ["m"]⟩] 1]
    let xs : Value := .list [.int 1, .int 2]
    let env : Env :=
      { globals := Context.ofEntries [("xs", xs), ("y", .string "Y"), ("z", .int 1)]
        modifiers := [("m", .ok)], callables := [], overrides := [("b", o)] }
    let env' : Env :=
      { globals := Context.ofEntries [("x", .undefined), ("xs", xs), ("y", .string "Y")]
        modifiers := [("m", .ok), ("n", .ok)], callables := [("f", fun _ _ => .ok "")]
        overrides := [("b", o), ("d", o)] }
    (∀ op, t.Reachable env.overrides op → op.Agrees env env') ∧
      t.render env = .text "Y12" ∧ t.render env = t.render env' := by
  intro o t xs env env'
  let y : Expr := ⟨"y", [], []⟩
  let ops : List Op := [.beginBlock "b" 1, .endBlock, .beginFor "x" ⟨"xs", [], []⟩ 0 4,
    .output ⟨"x", [], ["m"]⟩, .endFor 0 3, .beginBlock "c" 2, .output y]
  have own : t.program.instrs.toList.map Instr.op ⊆ ops := by decide
  have inside : o.template.program.instrs.toList.map Instr.op ⊆ ops := by decide
  have reachable : ∀ op, t.Reachable env.overrides op → op ∈ ops := by
    intro op reach
    induction reach with
    | own found =>
        have mem := Array.mem_toList_iff.2 (Array.mem_of_getElem? found)
        exact own (List.mem_map_of_mem mem)
    | @replaced name endAt i line o' op begins registered after before found ih =>
        have named : name = "b" ∧ endAt = 1 ∨ name = "c" ∧ endAt = 2 := by
          simpa [ops] using ih
        rcases named with ⟨rfl, -⟩ | ⟨rfl, -⟩
        · obtain rfl : o = o' := Option.some.inj registered
          have mem := Array.mem_toList_iff.2 (Array.mem_of_getElem? found)
          exact inside (List.mem_map_of_mem mem)
        · cases registered
  have collection : Expr.Agrees env env' ⟨"xs", [], []⟩ := ⟨by cbv, List.forall_mem_nil _⟩
  have item : Expr.Agrees env env' ⟨"x", [], ["m"]⟩ := ⟨by cbv, List.forall_mem_singleton.2 rfl⟩
  have global : Expr.Agrees env env' y := ⟨by cbv, List.forall_mem_nil _⟩
  have agree : ∀ op ∈ ops, op.Agrees env env' := by
    intro op mem
    simp only [ops, List.mem_cons, List.not_mem_nil, or_false] at mem
    refine ⟨?_, ?_, ?_⟩
    · rcases mem with rfl | rfl | rfl | rfl | rfl | rfl | rfl
      · exact List.forall_mem_nil _
      · exact List.forall_mem_nil _
      · exact List.forall_mem_singleton.2 collection
      · exact List.forall_mem_singleton.2 item
      · exact List.forall_mem_nil _
      · exact List.forall_mem_nil _
      · exact List.forall_mem_singleton.2 global
    · intro name arguments called
      rcases mem with rfl | rfl | rfl | rfl | rfl | rfl | rfl <;> cases called
    · intro name endAt begun
      rcases mem with rfl | rfl | rfl | rfl | rfl | rfl | rfl <;> cases begun <;> rfl
  have text : t.render env = .text "Y12" := render_eq_text_iff.2 (by cbv)
  have agreed : ∀ op, t.Reachable env.overrides op → op.Agrees env env' :=
    fun op reach => agree op (reachable op reach)
  exact ⟨agreed, text, render_eq_of_agrees agreed⟩

end BraceTemplate
