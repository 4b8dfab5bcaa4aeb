/-
# BraceTemplate.Proofs.Render.Sense — what nodes say, wherever they stand

`senseAll env locals before nodes` is the text after nodes, or what went wrong in them, with blocks
standing for their own bodies. Neither lines nor positions nor the names of templates enter, so
nodes that are moved to another place keep their sense.

* `meaning_eq_senseAll`: where no override is run inside another, nodes mean what they say with the
  bodies of the overrides planted in them.
-/
import BraceTemplate.Proofs.Render.Agreement
import BraceTemplate.Proofs.Source.Planting
import BraceTemplate.Render.Tree

namespace BraceTemplate

set_option autoImplicit false

open RenderError (Cause)

mutual

/-- The text after a node, given the text before it, or what went wrong. -/
def Node.sense (env : Env) (locals : Dict Value) (before : String) : Node → Except Cause String
  | .text _ s => .ok (before ++ s)
  | .output _ expr => (env.output locals expr).map (before ++ ·)
  | .call _ name arguments => (env.call locals before name arguments).map (before ++ ·)
  | .ifThen _ condition yes _ =>
      match env.holds locals condition with
      | .error cause => .error cause
      | .ok true => senseAll env locals before yes
      | .ok false => .ok before
  | .ifElse _ condition yes _ no _ =>
      match env.holds locals condition with
      | .error cause => .error cause
      | .ok true => senseAll env locals before yes
      | .ok false => senseAll env locals before no
  | .loop _ item collection body _ =>
      match env.items locals collection with
      | .error cause => .error cause
      | .ok items =>
          items.zipIdx.foldlM (fun text (v, index) =>
            senseAll env (bindItem locals item v index) text body) before
  | .block _ _ body _ => senseAll env locals before body

/-- The text after nodes in a row, or what went wrong first. -/
def senseAll (env : Env) (locals : Dict Value) (before : String) :
    List Node → Except Cause String
  | [] => .ok before
  | node :: rest =>
      match node.sense env locals before with
      | .ok text => senseAll env locals text rest
      | .error cause => .error cause

end

/-- The bodies of the overrides that blocks stand for, without their lines. -/
def Env.bodies (env : Env) (active : List String) (name : String) : Option (List Node) :=
  (env.override? active name).map fun o => bareAll o.nodes

/-! ## Expressions do not depend on overrides -/

namespace Env

/-- An environment without overrides. -/
def plain (env : Env) : Env :=
  { env with overrides := [] }

variable (env : Env) (locals : Dict Value)

theorem plain_agrees (e : Expr) : e.Agrees env.plain env := by
  have globals : env.plain.globals = env.globals := rfl
  have modifiers : env.plain.modifiers = env.modifiers := rfl
  exact Expr.agrees_of_eq globals modifiers e

@[simp] theorem holds_plain (e : Expr) : env.plain.holds locals e = env.holds locals e :=
  (env.plain_agrees e).holds_eq locals

@[simp] theorem output_plain (e : Expr) : env.plain.output locals e = env.output locals e :=
  (env.plain_agrees e).output_eq locals

@[simp] theorem items_plain (e : Expr) : env.plain.items locals e = env.items locals e :=
  (env.plain_agrees e).items_eq locals

@[simp] theorem call_plain (written name : String) (args : List (String × Expr)) :
    env.plain.call locals written name args = env.call locals written name args := by
  have callable : env.plain.callables.find? name = env.callables.find? name := rfl
  exact call_congr callable (fun argument _ => env.plain_agrees argument.2) locals written

end Env

/-! ## Meaning and sense -/

theorem foldlM_mapError {ε ε' α β : Type} (h : ε → ε') (f : β → α → Except ε β) (items : List α)
    (b : β) : (items.foldlM f b).mapError h = items.foldlM (fun b a => (f b a).mapError h) b := by
  induction items generalizing b with
  | nil => rfl
  | cons a items ih =>
      rw [List.foldlM_cons, List.foldlM_cons]
      cases f b a with
      | error e => rfl
      | ok c => exact ih c

/-- While an override is run, no other one is. -/
def Env.Single (env : Env) (active : List String) : Prop :=
  ∀ name o, env.override? active name = some o →
    ∀ other, env.override? (name :: active) other = none

theorem Env.bodies_of_none {env : Env} {active : List String}
    (none : ∀ name, env.override? active name = none) : env.bodies active = fun _ => .none :=
  funext fun name => by rw [bodies, none]; rfl

theorem Env.Single.of_none {env : Env} {active : List String}
    (none : ∀ name, env.override? active name = none) : env.Single active := by
  intro name o found
  rw [none] at found
  cases found

mutual

theorem Node.meaning_eq_sense {env : Env} {active : List String} (single : env.Single active)
    (node : Node) (template : String) (locals : Dict Value) (start : Nat) (before : String)
    (g : Nat → Nat) :
    (node.meaning env template active locals start before).mapError RenderError.cause =
      (node.plant g (env.bodies active)).sense env.plain locals before :=
  match node with
  | .text _ s => by
      rw [Node.meaning, Node.plant, Node.sense]
      rfl
  | .output line expr => by
      rw [Node.meaning, Node.plant, Node.sense, Env.output_plain]
      cases env.output locals expr <;> rfl
  | .call line name arguments => by
      rw [Node.meaning, Node.plant, Node.sense, Env.call_plain]
      cases env.call locals before name arguments <;> rfl
  | .ifThen line condition yes _ => by
      rw [Node.meaning, Node.plant, Node.sense, Env.holds_plain]
      rcases env.holds locals condition with cause | _ | _
      · rfl
      · rfl
      · exact meaning_eq_senseAll single yes template locals (start + 1) before g
  | .ifElse line condition yes _ no _ => by
      rw [Node.meaning, Node.plant, Node.sense, Env.holds_plain]
      rcases env.holds locals condition with cause | _ | _
      · rfl
      · exact meaning_eq_senseAll single no template locals _ before g
      · exact meaning_eq_senseAll single yes template locals (start + 1) before g
  | .loop line item collection body _ => by
      rw [Node.meaning, Node.plant, Node.sense, Env.items_plain]
      cases env.items locals collection with
      | error cause => rfl
      | ok items =>
          simp only [foldlM_mapError]
          congr 1
          funext text entry
          exact meaning_eq_senseAll single body template _ (start + 1) text g
  | .block line name body _ => by
      rw [Node.plant, Node.sense, Env.bodies]
      cases chosen : env.override? active name with
      | none =>
          rw [Node.meaning_block_of_none chosen]
          exact meaning_eq_senseAll single body template locals (start + 1) before g
      | some o =>
          -- No other override is run inside this one, so its nodes stand as they are.
          have none := single name o chosen
          have inside := meaning_eq_senseAll (.of_none none) o.nodes o.template.name locals o.start
            before fun _ => 0
          rw [Env.bodies_of_none none] at inside
          rw [Node.meaning_block_of_some chosen]
          exact inside
  termination_by ((env.inactive active).length, sizeOf node)
  decreasing_by
    rotate_right
    · exact Prod.Lex.left _ _ (Env.length_inactive_cons ‹_›)
    all_goals
      refine Prod.Lex.right _ ?_
      simp only [Node.ifThen.sizeOf_spec, Node.ifElse.sizeOf_spec, Node.loop.sizeOf_spec,
        Node.block.sizeOf_spec]
      omega

theorem meaning_eq_senseAll {env : Env} {active : List String} (single : env.Single active)
    (nodes : List Node) (template : String) (locals : Dict Value) (start : Nat) (before : String)
    (g : Nat → Nat) :
    (meaningAll env template active locals start before nodes).mapError RenderError.cause =
      senseAll env.plain locals before (plantAll g (env.bodies active) nodes) :=
  match nodes with
  | [] => by
      rw [meaningAll, plantAll, senseAll]
      rfl
  | node :: rest => by
      have first := node.meaning_eq_sense single template locals start before g
      rw [meaningAll, plantAll, senseAll, ← first]
      cases node.meaning env template active locals start before with
      | error e => rfl
      | ok text =>
          exact meaning_eq_senseAll single rest template locals (start + node.size) text g
  termination_by ((env.inactive active).length, sizeOf nodes)
  decreasing_by
    all_goals exact Prod.Lex.right _ (by simp only [List.cons.sizeOf_spec]; omega)

end

end BraceTemplate
