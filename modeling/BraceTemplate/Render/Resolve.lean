/-
# BraceTemplate.Render.Resolve — the values of expressions

A name is looked up among the local variables and then among the global ones; a local variable
hides a global one even if it holds no value. The value is followed along the steps of the
expression and then passed through its modifiers in order; the first failure is the result.
-/
import BraceTemplate.Context
import BraceTemplate.Registry
import BraceTemplate.Render.Error

namespace BraceTemplate

set_option autoImplicit false

/-- What a render reads from. -/
structure Env where
  globals : Context
  modifiers : Modifiers
  callables : Callables
  overrides : Overrides

/-- The value one step further, if there is one. -/
def Step.follow? (step : Step) (v : Value) : Option Value :=
  match step, v with
  | .key k, .map entries => Dict.find? entries k
  | .index i, .list items => items[i.toNat]?
  | .index i, .map entries => Dict.find? entries (String.ofList (digits i))
  | _, _ => none

/-- The name under which a loop binds the position of its item. -/
def indexName (item : String) : String :=
  item ++ "_idx"

/-- Local variables with the item of a loop and its position bound. -/
def bindItem (locals : Dict Value) (item : String) (v : Value) (index : Nat) : Dict Value :=
  (locals.insert item v).insert (indexName item) (Value.ofNat index)

namespace Env

open RenderError (Cause)

variable (env : Env) (locals : Dict Value)

/-- The value of a name, if it is bound to one. -/
def lookup? (name : String) : Option Value :=
  let bound := match locals.find? name with
    | some v => some v
    | none => env.globals.find? name
  bound.filter Value.isDefined

/-- The value at the end of steps of an expression. -/
def follow (e : Expr) (v : Value) : List Step → Except Cause Value
  | [] => .ok v
  | step :: rest =>
      match step.follow? v with
      | some next => follow e next rest
      | none => .error (.unresolvableStep e.pathText step.text)

/-- A value passed through modifiers in order. -/
def modify (v : Value) : List String → Except Cause Value
  | [] => .ok v
  | name :: rest =>
      match env.modifiers.find? name with
      | none => .error (.unknownModifier name)
      | some modifier =>
          match modifier v with
          | .ok next => modify next rest
          | .error message => .error (.modifierFailed name message)

/-- The value of an expression. -/
def resolve (e : Expr) : Except Cause Value :=
  match env.lookup? locals e.root with
  | none => .error (.undefinedVariable e.root)
  | some v =>
      match follow e v e.steps with
      | .ok found => env.modify found e.modifiers
      | .error cause => .error cause

/-- Whether the condition of an `if` holds. A name that is not bound does not hold, but the
modifiers must be registered all the same. -/
def holds (e : Expr) : Except Cause Bool :=
  match env.lookup? locals e.root with
  | some _ => (env.resolve locals e).map Value.isTruthy
  | none =>
      match e.modifiers.find? fun name => !env.modifiers.contains name with
      | some name => .error (.unknownModifier name)
      | none => .ok false

/-- The text of an expression that is written out. -/
def output (e : Expr) : Except Cause String :=
  match env.resolve locals e with
  | .error cause => .error cause
  | .ok v =>
      match v.text? with
      | some s => .ok s
      | none =>
          if v.isDefined then .error (.notRenderable e.text v.kind)
          else .error (.undefinedVariable e.pathText)

/-- The items of the collection of a loop. -/
def items (e : Expr) : Except Cause (List Value) :=
  match env.resolve locals e with
  | .ok (.list items) => .ok items
  | .ok v => .error (.notIterable e.text v.kind)
  | .error cause => .error cause

/-- The arguments of a call, resolved in order after those before them. -/
def arguments (before : Dict Value) : List (String × Expr) → Except Cause (Dict Value)
  | [] => .ok before
  | (name, e) :: rest =>
      match env.resolve locals e with
      | .ok v => arguments (before.insert name v) rest
      | .error cause => .error cause

/-- The text that a call appends to the output so far. -/
def call (written name : String) (args : List (String × Expr)) : Except Cause String :=
  match env.callables.find? name with
  | none => .error (.unknownCallable name)
  | some callable =>
      match env.arguments locals [] args with
      | .error cause => .error cause
      | .ok values =>
          match callable values written with
          | .ok appended => .ok appended
          | .error message => .error (.callableFailed name message)

/-- The replacement for a block, unless it is being run already. -/
def override? (active : List String) (name : String) : Option Override :=
  if name ∈ active then none else env.overrides.find? name

/-- The blocks with a replacement that is not being run. -/
def inactive (active : List String) : List String :=
  env.overrides.keys.filter fun name => name ∉ active

theorem override?_eq_some {env : Env} {active : List String} {name : String} {body : Override} :
    env.override? active name = some body ↔
      name ∉ active ∧ env.overrides.find? name = some body := by
  rw [override?]
  split
  · next hmem => exact ⟨nofun, fun h => absurd hmem h.1⟩
  · next hnot => exact ⟨fun h => ⟨hnot, h⟩, And.right⟩

theorem length_inactive_cons {env : Env} {active : List String} {name : String} {body : Override}
    (h : env.override? active name = some body) :
    (env.inactive (name :: active)).length < (env.inactive active).length := by
  obtain ⟨hnot, hfound⟩ := override?_eq_some.1 h
  have hmem : name ∈ env.inactive active := by
    simp only [inactive, List.mem_filter, decide_eq_true_eq]
    exact ⟨Dict.mem_keys_of_find? hfound, hnot⟩
  have hsub : env.inactive (name :: active) = (env.inactive active).filter fun n => n ≠ name := by
    simp only [inactive, List.filter_filter]
    congr 1
    funext n
    simp [List.mem_cons, not_or]
  rw [hsub]
  rcases Nat.lt_or_ge ((env.inactive active).filter fun n => n ≠ name).length
    (env.inactive active).length with hlt | hge
  · exact hlt
  · exfalso
    have heq := (List.filter_sublist (p := fun n => decide (n ≠ name))
      (l := env.inactive active)).eq_of_length_le hge
    rw [← heq] at hmem
    simp at hmem

end Env

end BraceTemplate
