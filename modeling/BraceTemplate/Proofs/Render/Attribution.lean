/-
# BraceTemplate.Proofs.Render.Attribution — errors name the operation that fails

A render error names a template, a position and a line. `RenderError.Cause.Fits` says for each cause
which operations can fail with it, and what in the operation it speaks of.

* `resolve_blames`, `holds_blames`, `output_fits`, `items_fits`, `call_fits`: the causes of each
  reader of values;
* `exec_fits`: an operation fails only with a cause that fits it;
* `attribution_of_render`: the error of a render names an operation of the rendered template or of
  an override, inside the range that is being run, and the line of its directive.
-/
import BraceTemplate.Proofs.Render.Dependence
import BraceTemplate.Proofs.Render.Origin
import BraceTemplate.Proofs.Source.Location

namespace BraceTemplate

set_option autoImplicit false

/-! ## Causes -/

/-- An operation is the beginning of an `if`. -/
def Op.IsCondition : Op → Prop
  | .beginIf _ _ _ _ => True
  | _ => False

namespace RenderError.Cause

variable (env : Env) (locals : Dict Value)

/-- What a cause says about an expression that has no value. -/
def Blames (e : Expr) : RenderError.Cause → Prop
  | .undefinedVariable name => name = e.root ∧ env.lookup? locals e.root = none
  | .unresolvableStep path step =>
      path = e.pathText ∧ ∃ s ∈ e.steps, step = s.text ∧ ∃ v, s.follow? v = none
  | .unknownModifier name => name ∈ e.modifiers ∧ env.modifiers.find? name = none
  | .modifierFailed name message =>
      name ∈ e.modifiers ∧ ∃ modifier v, env.modifiers.find? name = some modifier ∧
        modifier v = .error message
  | _ => False

/-- What a cause says about an operation that fails with it, after a given output. -/
def Fits (written : String) (op : Op) : RenderError.Cause → Prop
  | .undefinedVariable name =>
      ¬ op.IsCondition ∧
        ((∃ e ∈ op.exprs, Blames env locals e (.undefinedVariable name)) ∨
          ∃ e, op = .output e ∧ name = e.pathText ∧ env.resolve locals e = .ok .undefined)
  | .notRenderable text kind =>
      ∃ e v, op = .output e ∧ text = e.text ∧ env.resolve locals e = .ok v ∧ kind = v.kind ∧
        ((∃ items, v = .list items) ∨ ∃ entries, v = .map entries)
  | .notIterable text kind =>
      ∃ item e slot endAt v, op = .beginFor item e slot endAt ∧ text = e.text ∧
        env.resolve locals e = .ok v ∧ kind = v.kind ∧ ∀ items, v ≠ .list items
  | .unknownCallable name =>
      ∃ arguments, op = .call name arguments ∧ env.callables.find? name = none
  | .callableFailed name message =>
      ∃ arguments callable values, op = .call name arguments ∧
        env.callables.find? name = some callable ∧
        env.arguments locals [] arguments = .ok values ∧ callable values written = .error message
  | cause => ∃ e ∈ op.exprs, cause.Blames env locals e

end RenderError.Cause

open RenderError (Cause)

namespace Env

variable {env : Env} {locals : Dict Value} {e : Expr} {cause : Cause}

/-! ## Expressions -/

theorem follow_error {v : Value} {steps : List Step} (fails : follow e v steps = .error cause) :
    ∃ s ∈ steps, cause = .unresolvableStep e.pathText s.text ∧ ∃ v, s.follow? v = none := by
  induction steps generalizing v with
  | nil => cases fails
  | cons step rest ih =>
      rw [follow] at fails
      split at fails
      · obtain ⟨s, mem, found⟩ := ih fails
        exact ⟨s, List.mem_cons_of_mem _ mem, found⟩
      · rename_i none
        exact ⟨step, List.mem_cons_self, (Except.error.inj fails).symm, v, none⟩

theorem modify_error {v : Value} {names : List String} (fails : env.modify v names = .error cause) :
    ∃ name ∈ names, cause = .unknownModifier name ∧ env.modifiers.find? name = none ∨
      ∃ modifier w message, cause = .modifierFailed name message ∧
        env.modifiers.find? name = some modifier ∧ modifier w = .error message := by
  induction names generalizing v with
  | nil => cases fails
  | cons name rest ih =>
      rw [modify] at fails
      split at fails
      · rename_i none
        exact ⟨name, List.mem_cons_self, .inl ⟨(Except.error.inj fails).symm, none⟩⟩
      · rename_i modifier registered
        split at fails
        · obtain ⟨name, mem, found⟩ := ih fails
          exact ⟨name, List.mem_cons_of_mem _ mem, found⟩
        · rename_i message failed
          exact ⟨name, List.mem_cons_self,
            .inr ⟨modifier, v, message, (Except.error.inj fails).symm, registered, failed⟩⟩

/-- An expression has no value for a reason that lies in it. -/
theorem resolve_blames (fails : env.resolve locals e = .error cause) :
    cause.Blames env locals e := by
  rw [resolve] at fails
  split at fails
  · rename_i unbound
    rw [← Except.error.inj fails]
    exact ⟨rfl, unbound⟩
  · split at fails
    · obtain ⟨name, mem, ⟨rfl, unregistered⟩ | ⟨modifier, v, message, rfl, registered, failed⟩⟩ :=
        modify_error fails
      · exact ⟨mem, unregistered⟩
      · exact ⟨mem, modifier, v, registered, failed⟩
    · rename_i failed
      obtain rfl := Except.error.inj fails
      obtain ⟨s, mem, rfl, stuck⟩ := follow_error failed
      exact ⟨rfl, s, mem, rfl, stuck⟩

/-- A condition fails for a reason that lies in it, but not because its name is not bound. -/
theorem holds_blames (fails : env.holds locals e = .error cause) :
    cause.Blames env locals e ∧ ∀ name, cause ≠ .undefinedVariable name := by
  rw [holds] at fails
  split at fails
  · rename_i v bound
    cases value : env.resolve locals e with
    | ok w =>
        rw [value] at fails
        cases fails
    | error cause' =>
        rw [value] at fails
        obtain rfl := Except.error.inj fails
        have blames := resolve_blames value
        refine ⟨blames, ?_⟩
        rintro name rfl
        rw [blames.2] at bound
        cases bound
  · split at fails
    · rename_i name found
      obtain rfl := Except.error.inj fails
      have unregistered : env.modifiers.find? name = none := by
        have contains := List.find?_some found
        rwa [Dict.contains, Bool.not_eq_true', Option.isSome_eq_false_iff,
          Option.isNone_iff_eq_none] at contains
      refine ⟨⟨List.mem_of_find?_eq_some found, unregistered⟩, ?_⟩
      rintro _ ⟨⟩
    · cases fails

/-! ## Operations -/

/-- A cause that lies in an expression of an operation fits the operation, except that no `if` fails
because a name is not bound. -/
theorem fits_of_blames {written : String} {op : Op} (blames : cause.Blames env locals e)
    (mem : e ∈ op.exprs)
    (strict : ∀ name, cause = .undefinedVariable name → ¬ op.IsCondition) :
    cause.Fits env locals written op := by
  cases cause with
  | undefinedVariable name => exact ⟨strict name rfl, .inl ⟨e, mem, blames⟩⟩
  | unresolvableStep | unknownModifier | modifierFailed => exact ⟨e, mem, blames⟩
  | unknownCallable | callableFailed | notIterable | notRenderable => cases blames

theorem output_fits {written : String} (fails : env.output locals e = .error cause) :
    cause.Fits env locals written (.output e) := by
  rw [output] at fails
  split at fails
  · rename_i value
    obtain rfl := Except.error.inj fails
    exact fits_of_blames (resolve_blames value) List.mem_cons_self fun _ _ => not_false
  · rename_i v value
    split at fails
    · cases fails
    · rename_i noText
      split at fails
      · rw [← Except.error.inj fails]
        cases v with
        | list items => exact ⟨e, _, rfl, rfl, value, rfl, .inl ⟨items, rfl⟩⟩
        | map entries => exact ⟨e, _, rfl, rfl, value, rfl, .inr ⟨entries, rfl⟩⟩
        | undefined => contradiction
        | bool | int | float | string => cases noText
      · rename_i noValue
        rw [← Except.error.inj fails]
        cases v with
        | undefined => exact ⟨not_false, .inr ⟨e, rfl, rfl, value⟩⟩
        | bool | int | float | string | list | map => exact absurd rfl noValue

theorem items_fits {written item : String} {slot endAt : Nat}
    (fails : env.items locals e = .error cause) :
    cause.Fits env locals written (.beginFor item e slot endAt) := by
  rw [items] at fails
  split at fails
  · cases fails
  · rename_i v noList value
    rw [← Except.error.inj fails]
    refine ⟨item, e, slot, endAt, v, rfl, rfl, value, rfl, ?_⟩
    rintro items rfl
    exact noList items rfl
  · rename_i value
    obtain rfl := Except.error.inj fails
    exact fits_of_blames (resolve_blames value) List.mem_cons_self fun _ _ => not_false

theorem arguments_blames {before : Dict Value} {args : List (String × Expr)}
    (fails : env.arguments locals before args = .error cause) :
    ∃ e ∈ args.map Prod.snd, cause.Blames env locals e := by
  induction args generalizing before with
  | nil => cases fails
  | cons argument rest ih =>
      rw [arguments] at fails
      split at fails
      · obtain ⟨e, mem, blames⟩ := ih fails
        exact ⟨e, List.mem_cons_of_mem _ mem, blames⟩
      · rename_i value
        obtain rfl := Except.error.inj fails
        exact ⟨_, List.mem_cons_self, resolve_blames value⟩

theorem call_fits {written name : String} {args : List (String × Expr)}
    (fails : env.call locals written name args = .error cause) :
    cause.Fits env locals written (.call name args) := by
  rw [call] at fails
  split at fails
  · rename_i unregistered
    rw [← Except.error.inj fails]
    exact ⟨args, rfl, unregistered⟩
  · rename_i callable registered
    split at fails
    · rename_i failed
      obtain rfl := Except.error.inj fails
      obtain ⟨e, mem, blames⟩ := arguments_blames failed
      exact fits_of_blames blames mem fun _ _ => not_false
    · rename_i values arguments
      split at fails
      · cases fails
      · rename_i failed
        rw [← Except.error.inj fails]
        exact ⟨args, callable, values, rfl, registered, arguments, failed⟩

theorem condition_fits {written : String} {slot endAt : Nat} {elseAt : Option Nat}
    (fails : env.holds locals e = .error cause) :
    cause.Fits env locals written (.beginIf e slot elseAt endAt) := by
  obtain ⟨blames, bound⟩ := holds_blames fails
  exact fits_of_blames blames List.mem_cons_self fun name same => absurd same (bound name)

end Env

namespace Machine

variable {env : Env} {active : List String} {ip : Nat} {slots : List Slot} {locals : Dict Value}
  {cause : Cause}

theorem withSlot_ne_fail {slot : Nat} {state : Slot} {k : List Slot → Move}
    (goes : ∀ slots, k slots ≠ .fail cause) : withSlot slots slot state k ≠ .fail cause := by
  rw [withSlot]
  split
  · exact goes _
  · rintro ⟨⟩

theorem jump_ne_fail {target : Nat} : jump ip locals target slots ≠ .fail cause := by
  rw [jump]
  split <;> rintro ⟨⟩

theorem beginLoop_ne_fail {item : String} {slot endAt : Nat} {items : List Value} :
    beginLoop ip slots locals item slot endAt items ≠ .fail cause := by
  cases items with
  | nil => exact withSlot_ne_fail fun _ => jump_ne_fail
  | cons =>
      rw [beginLoop]
      apply withSlot_ne_fail
      rintro _ ⟨⟩

theorem endLoop_ne_fail {slot bodyAt : Nat} {l : Loop} :
    endLoop ip slots locals slot bodyAt l ≠ .fail cause := by
  rw [endLoop]
  split
  · split
    all_goals
      apply withSlot_ne_fail
      rintro _ ⟨⟩
  · rintro ⟨⟩

/-- An operation fails only with a cause that fits it, and it comes from a directive in braces. -/
theorem exec_fits {written : String} {op : Op}
    (fails : exec env active ip slots locals written op = .fail cause) :
    cause.Fits env locals written op ∧ op.directive.Kept := by
  cases op with
  | output e =>
      rw [exec] at fails
      split at fails
      · cases fails
      · rename_i failed
        obtain rfl := Move.fail.inj fails
        exact ⟨env.output_fits failed, trivial⟩
  | call name args =>
      rw [exec] at fails
      split at fails
      · cases fails
      · rename_i failed
        obtain rfl := Move.fail.inj fails
        exact ⟨Env.call_fits failed, trivial⟩
  | beginIf condition slot elseAt endAt =>
      simp only [exec] at fails
      split at fails
      · exact absurd fails (withSlot_ne_fail fun _ => jump_ne_fail)
      · rename_i failed
        obtain rfl := Move.fail.inj fails
        exact ⟨Env.condition_fits failed, trivial⟩
  | beginFor item collection slot endAt =>
      rw [exec] at fails
      split at fails
      · exact absurd fails beginLoop_ne_fail
      · rename_i failed
        obtain rfl := Move.fail.inj fails
        exact ⟨Env.items_fits failed, trivial⟩
  | text | endBlock => cases fails
  | orElse slot endAt =>
      simp only [exec] at fails
      split at fails
      · exact absurd fails jump_ne_fail
      · cases fails
  | endIf slot =>
      rw [exec] at fails
      refine absurd fails (withSlot_ne_fail ?_)
      rintro _ ⟨⟩
  | endFor slot bodyAt =>
      rw [exec] at fails
      split at fails
      · exact absurd fails endLoop_ne_fail
      · cases fails
  | beginBlock name endAt =>
      rw [exec] at fails
      split at fails
      · cases fails
      · split at fails <;> cases fails

end Machine

open Machine

/-- **Errors name the operation that fails.** Whenever a render fails, an operation of the rendered
template or of the template of an override fails, inside the range that is run of it. The error has
the name of this template and the position and the line of the operation, and its cause fits the
operation. If the template was compiled from a source text, the directive of the operation stands
there on this line. -/
theorem attribution_of_render {t : Template} {env : Env} {e : RenderError}
    (fails : t.render env = .failed e) :
    ∃ s f rest range op, Reached t env s ∧ step env s = .failed e ∧ s.frames = f :: rest ∧
      f.RunsRange t env range ∧ f.template.name = e.template ∧ range.start ≤ e.opIndex ∧
      e.opIndex < range.stop ∧ f.template.program.instrs[e.opIndex]? = some ⟨op, e.line⟩ ∧
      e.cause.Fits env s.locals s.output op ∧
      ∀ source, Template.compile e.template source = .ok f.template →
        WrittenAt source.toList e.opIndex e.line op.directive := by
  obtain ⟨s, f, rest, reached, top, failed, -⟩ := failed_of_render fails
  obtain ⟨frames, locals, output⟩ := s
  obtain rfl : frames = f :: rest := top
  obtain ⟨range, runs, inRange⟩ := reached.inRange f List.mem_cons_self
  obtain ⟨running, ⟨op, line⟩, cause, found, stops, rfl⟩ := failed_cases failed
  obtain ⟨fits, kept⟩ := exec_fits stops
  refine ⟨_, f, rest, range, op, reached, failed, rfl, runs, rfl, inRange.after, ?_, found, fits,
    ?_⟩
  · rw [← inRange.stop]
    exact running
  · intro source compiled
    exact writtenAt_of_compile compiled kept found

set_option maxRecDepth 2000 in
/-- The override of a block in a loop fails on its second line. -/
theorem attribution_of_render_override :
    let source := "-\n\x7b$x.k|trim\x7d"
    let t := Template.ofNodes "page" [.loop 1 "x" ⟨"xs", [], []⟩ [.block 1 "b" [] 1] 1]
    let o := Template.ofNodes "part" [.text 1 "-\n", .output 2 ⟨"x", [.key "k"], ["trim"]⟩]
    let env : Env := ⟨Context.ofEntries [("xs", .list [.int 1])], [], [], [("b", .whole o)]⟩
    Template.compile "page"
        "\x7b%for x xs%\x7d\x7b%block b%\x7d\x7b%endblock%\x7d\x7b%endfor%\x7d" = .ok t ∧
      Template.compile "part" source = .ok o ∧
      t.render env = .failed ⟨"part", 1, 2, .unresolvableStep "x.k" ".k"⟩ ∧
      WrittenAt source.toList 1 2 (.output ⟨"x", [.key "k"], ["trim"]⟩) := by
  intro source t o env
  have page : Template.compile "page"
      "\x7b%for x xs%\x7d\x7b%block b%\x7d\x7b%endblock%\x7d\x7b%endfor%\x7d" = .ok t :=
    Template.compile_eq_ok_iff.2 ⟨_, by cbv, rfl⟩
  have part : Template.compile "part" source = .ok o :=
    Template.compile_eq_ok_iff.2 ⟨_, by cbv, rfl⟩
  have fails : t.render env = .failed ⟨"part", 1, 2, .unresolvableStep "x.k" ".k"⟩ :=
    render_eq_failed_iff.2 (by cbv)
  obtain ⟨s, f, rest, range, op, -, -, -, runs, name, -, -, found, -, written⟩ :=
    attribution_of_render fails
  have template : f.template = o := by
    cases runs with
    | rendered template =>
        have other : "page" ≠ "part" := by decide
        rw [template] at name
        exact absurd name other
    | override registered template =>
        rw [Dict.find?_cons] at registered
        split at registered
        · rw [template, ← Option.some.inj registered]
          rfl
        · cases registered
  rw [template] at found written
  have operation : o.program.instrs[1]? = some ⟨.output ⟨"x", [.key "k"], ["trim"]⟩, 2⟩ := by cbv
  obtain ⟨rfl, -⟩ := Instr.mk.inj (Option.some.inj (found.symm.trans operation))
  exact ⟨page, part, fails, written source part⟩

end BraceTemplate
