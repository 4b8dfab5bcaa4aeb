/-
# BraceTemplate.Proofs.Render.Agreement — what the value of an expression depends on

An expression reads the local variables, the global variable that it begins with and the modifiers
that it names. Environments that agree on these (`Expr.Agrees`) give it the same value or the same
failure, wherever it stands: in the output, as a condition, as a collection or as an argument.
-/
import BraceTemplate.Render.Resolve

namespace BraceTemplate

set_option autoImplicit false

/-- The value of a global variable, if it is bound to one. -/
def Env.global? (env : Env) (name : String) : Option Value :=
  (env.globals.find? name).filter Value.isDefined

/-- Environments have the same global variable and the same modifiers under the names of an
expression. -/
structure Expr.Agrees (env env' : Env) (e : Expr) : Prop where
  root : env.global? e.root = env'.global? e.root
  modifiers : ∀ name ∈ e.modifiers, env.modifiers.find? name = env'.modifiers.find? name

section

variable {env env' : Env}

theorem Expr.agrees_of_eq (globals : env.globals = env'.globals)
    (modifiers : env.modifiers = env'.modifiers) (e : Expr) : e.Agrees env env' := by
  refine ⟨?_, fun name _ => ?_⟩
  · rw [Env.global?, Env.global?, globals]
  · rw [modifiers]

/-- A local variable hides the global one, so only the latter is compared. -/
theorem Env.lookup?_congr {name : String} (same : env.global? name = env'.global? name)
    (locals : Dict Value) : env.lookup? locals name = env'.lookup? locals name := by
  simp only [lookup?]
  cases locals.find? name with
  | some v => rfl
  | none => exact same

theorem Env.modify_congr {names : List String}
    (same : ∀ name ∈ names, env.modifiers.find? name = env'.modifiers.find? name) (v : Value) :
    env.modify v names = env'.modify v names := by
  induction names generalizing v with
  | nil => rfl
  | cons name rest ih =>
      rw [List.forall_mem_cons] at same
      simp only [modify, same.1, ih same.2]

namespace Expr.Agrees

variable {e : Expr} (agrees : e.Agrees env env') (locals : Dict Value)

include agrees

theorem resolve_eq : env.resolve locals e = env'.resolve locals e := by
  simp only [Env.resolve, Env.lookup?_congr agrees.root, Env.modify_congr agrees.modifiers]

theorem holds_eq : env.holds locals e = env'.holds locals e := by
  have registered : ∀ name ∈ e.modifiers,
      (!env.modifiers.contains name) = !env'.modifiers.contains name := by
    intro name mem
    rw [Dict.contains, Dict.contains, agrees.modifiers name mem]
  have missing : (e.modifiers.find? fun name => !env.modifiers.contains name) =
      e.modifiers.find? fun name => !env'.modifiers.contains name := by
    rw [← List.head?_filter, ← List.head?_filter, List.filter_congr registered]
  simp only [Env.holds, Env.lookup?_congr agrees.root, agrees.resolve_eq, missing]

theorem output_eq : env.output locals e = env'.output locals e := by
  simp only [Env.output, agrees.resolve_eq]

theorem items_eq : env.items locals e = env'.items locals e := by
  simp only [Env.items, agrees.resolve_eq]

end Expr.Agrees

theorem Env.arguments_congr {args : List (String × Expr)}
    (agree : ∀ argument ∈ args, argument.2.Agrees env env') (locals before : Dict Value) :
    env.arguments locals before args = env'.arguments locals before args := by
  induction args generalizing before with
  | nil => rfl
  | cons argument rest ih =>
      rw [List.forall_mem_cons] at agree
      simp only [arguments, agree.1.resolve_eq, ih agree.2]

/-- A call also reads the callable that it names. -/
theorem Env.call_congr {name : String} {args : List (String × Expr)}
    (callable : env.callables.find? name = env'.callables.find? name)
    (agree : ∀ argument ∈ args, argument.2.Agrees env env') (locals : Dict Value)
    (written : String) :
    env.call locals written name args = env'.call locals written name args := by
  simp only [call, callable, arguments_congr agree]

end

end BraceTemplate
