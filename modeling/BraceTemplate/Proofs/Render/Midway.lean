/-
# BraceTemplate.Proofs.Render.Midway — a run in the middle of nodes

`Midway env template active base start nodes ip slots locals todo` says everything about a run whose
position `ip` is among nodes that begin at `start`, entered with the local variables `base`:

* which constructs it is inside of, and in which branch or round (its constructors);
* the slots from the depth of the nodes on: one for each of these constructs, the others empty;
* the local variables: `base` with the items of the loops around bound, outermost first;
* what remains to be done (`todo`), as the meaning of the nodes in a row tells it.

In front of the nodes all of them are to be done; behind the last one nothing is left, and slots and
local variables are as they were (`Midway.done`).
-/
import BraceTemplate.Proofs.Render.Binding
import BraceTemplate.Proofs.Render.Placement
import BraceTemplate.Render.Tree

namespace BraceTemplate.Machine

set_option autoImplicit false

/-- What is still to be done: it leads from the text so far to the final text or the first error. -/
abbrev Completion := String → Except RenderError String

section

variable (env : Env) (template : String) (active : List String)

/-- All of some nodes are still to be done. -/
def ahead (base : Dict Value) (start : Nat) (nodes : List Node) : Completion := fun text =>
  meaningAll env template active base start text nodes

/-- Rounds of a loop that begins at a position, for items with their positions. -/
def rounds (base : Dict Value) (start : Nat) (item : String) (body : List Node)
    (items : List (Value × Nat)) : Completion := fun text =>
  items.foldlM (fun text (v, index) =>
    meaningAll env template active (bindItem base item v index) (start + 1) text body) text

/-- A slot holds the state of the loop over a collection that began at a position: `v` is its
current item, and it will restore what its names were bound to before. -/
structure Loop.Runs (base : Dict Value) (start : Nat) (item : String) (collection : Expr)
    (l : Loop) (v : Value) : Prop where
  item : l.item = item
  bodyAt : l.bodyAt = start + 1
  items : env.items base collection = .ok l.items
  current : l.items[l.index]? = some v
  outerItem : l.outerItem = base.find? l.item
  outerIndex : l.outerIndex = base.find? (indexName l.item)

/-- A run is in the middle of nodes; see the module comment. -/
inductive Midway : Dict Value → Nat → List Node → Nat → List Slot → Dict Value → Completion →
    Prop where
  /-- In front of the nodes, or behind the last one. -/
  | front (base : Dict Value) (start : Nat) (nodes : List Node) (free : Nat) :
      Midway base start nodes start (List.replicate free .empty) base
        (ahead env template active base start nodes)
  | behind {base locals : Dict Value} {start ip : Nat} {node : Node} {rest : List Node}
      {slots : List Slot} {todo : Completion} :
      Midway base (start + node.size) rest ip slots locals todo →
      Midway base start (node :: rest) ip slots locals todo
  /-- In the branch of an `if` without `else`, or at its end after the branch. -/
  | inThen {base locals : Dict Value} {start ip line endLine : Nat} {condition : Expr}
      {yes rest : List Node} {slots : List Slot} {todo : Completion} :
      Midway base (start + 1) yes ip slots locals todo →
      Midway base start (.ifThen line condition yes endLine :: rest) ip (.branch true :: slots)
        locals (todo >=> ahead env template active base (start + (sizes yes + 2)) rest)
  /-- At the end of an `if` without `else` whose condition did not hold. -/
  | notTaken (base : Dict Value) (start line endLine : Nat) (condition : Expr)
      (yes rest : List Node) (free : Nat) :
      Midway base start (.ifThen line condition yes endLine :: rest) (start + 1 + sizes yes)
        (.branch false :: List.replicate free .empty) base
        (ahead env template active base (start + (sizes yes + 2)) rest)
  /-- In the first branch of an `if`, or at its `else`. -/
  | inYes {base locals : Dict Value} {start ip line elseLine endLine : Nat} {condition : Expr}
      {yes no rest : List Node} {slots : List Slot} {todo : Completion} :
      Midway base (start + 1) yes ip slots locals todo →
      Midway base start (.ifElse line condition yes elseLine no endLine :: rest) ip
        (.branch true :: slots) locals
        (todo >=> ahead env template active base (start + (sizes yes + sizes no + 3)) rest)
  /-- In the second branch of an `if`, or at its end after that branch. -/
  | inNo {base locals : Dict Value} {start ip line elseLine endLine : Nat} {condition : Expr}
      {yes no rest : List Node} {slots : List Slot} {todo : Completion} :
      Midway base (start + 1 + sizes yes + 1) no ip slots locals todo →
      Midway base start (.ifElse line condition yes elseLine no endLine :: rest) ip
        (.branch false :: slots) locals
        (todo >=> ahead env template active base (start + (sizes yes + sizes no + 3)) rest)
  /-- At the end of an `if` whose `else` has jumped there. -/
  | jumped (base : Dict Value) (start line elseLine endLine : Nat) (condition : Expr)
      (yes no rest : List Node) (free : Nat) :
      Midway base start (.ifElse line condition yes elseLine no endLine :: rest)
        (start + 1 + sizes yes + 1 + sizes no) (.branch true :: List.replicate free .empty) base
        (ahead env template active base (start + (sizes yes + sizes no + 3)) rest)
  /-- In the body of a loop, or at its end. -/
  | inLoop {base locals : Dict Value} {start ip line endLine : Nat} {item : String}
      {collection : Expr} {body rest : List Node} {slots : List Slot} {todo : Completion}
      {l : Loop} {v : Value} (runs : l.Runs env base start item collection v) :
      Midway (bindItem base item v l.index) (start + 1) body ip slots locals todo →
      Midway base start (.loop line item collection body endLine :: rest) ip (.loop l :: slots)
        locals
        (todo >=> (rounds env template active base start item body
            (l.items.zipIdx.drop (l.index + 1)) >=>
          ahead env template active base (start + (sizes body + 2)) rest))
  /-- In the own body of a block, or at its end. -/
  | inBlock {base locals : Dict Value} {start ip line endLine : Nat} {name : String}
      {body rest : List Node} {slots : List Slot} {todo : Completion} :
      Midway base (start + 1) body ip slots locals todo →
      Midway base start (.block line name body endLine :: rest) ip (.empty :: slots) locals
        (todo >=> ahead env template active base (start + (sizes body + 2)) rest)

end

section

variable {env : Env} {template : String} {active : List String} {base locals : Dict Value}
  {start ip : Nat} {nodes rest : List Node} {node : Node} {slots : List Slot} {todo : Completion}

namespace Midway

theorem bounds (mid : Midway env template active base start nodes ip slots locals todo) :
    start ≤ ip ∧ ip ≤ start + sizes nodes := by
  induction mid with
  | front => exact ⟨Nat.le_refl _, Nat.le_add_right _ _⟩
  | behind _ ih => simp only [sizes] at ih ⊢; omega
  | inThen _ ih | inYes _ ih | inNo _ ih | inLoop _ _ ih | inBlock _ ih =>
      simp only [sizes, Node.size] at ih ⊢; omega
  | notTaken | jumped => simp only [sizes, Node.size]; omega

theorem ascending (mid : Midway env template active base start nodes ip slots locals todo)
    (ordered : base.Ascending) : locals.Ascending := by
  induction mid with
  | front | notTaken | jumped => exact ordered
  | behind _ ih | inThen _ ih | inYes _ ih | inNo _ ih | inBlock _ ih => exact ih ordered
  | inLoop _ _ ih => exact ih (ascending_bindItem ordered _ _ _)

theorem passed (free : Nat) (here : ip = start + node.size) :
    Midway env template active base start (node :: rest) ip (List.replicate free .empty) base
      (ahead env template active base (start + node.size) rest) := by
  subst here
  exact .behind (.front ..)

/-- Behind the last node nothing is left: the slots are empty and the local variables are those
that the nodes were entered with. -/
theorem done (mid : Midway env template active base start nodes ip slots locals todo)
    (last : ip = start + sizes nodes) :
    (∃ free, slots = List.replicate free .empty) ∧ locals = base ∧
      todo = fun text => .ok text := by
  induction mid with
  | front base start nodes free =>
      cases nodes with
      | nil => exact ⟨⟨free, rfl⟩, rfl, by funext text; rw [ahead, meaningAll]⟩
      | cons node rest =>
          have := node.size_pos
          simp only [sizes] at last
          omega
  | behind _ ih => exact ih (by simp only [sizes] at last; omega)
  | inThen mid | inYes mid | inNo mid | inLoop _ mid | inBlock mid =>
      have := mid.bounds
      simp only [sizes, Node.size] at last
      omega
  | notTaken | jumped => simp only [sizes, Node.size] at last; omega

end Midway

end

end BraceTemplate.Machine
