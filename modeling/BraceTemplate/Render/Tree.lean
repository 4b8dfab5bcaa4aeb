/-
# BraceTemplate.Render.Tree — what a directive tree means

The text of a template follows from its tree alone. A condition chooses one branch; a loop goes
through its body once for each item, with the item and its position bound inside the body and
nowhere else; a block stands for its replacement, unless that is being run already, or for its own
body. Nodes add to the text in order, and the first failure ends everything.

`Template.meaning` gives the text or the first error. An error names the position that the failing
node has in the program of its template.
-/
import BraceTemplate.Render.Resolve

namespace BraceTemplate

set_option autoImplicit false

mutual

/-- The text after a node, which begins at a position of the named template, given the text before
it and the blocks whose replacements are being run. -/
def Node.meaning (env : Env) (template : String) (active : List String) (locals : Dict Value)
    (start : Nat) (before : String) (node : Node) : Except RenderError String :=
  match node with
  | .text _ s => .ok (before ++ s)
  | .output line expr =>
      match env.output locals expr with
      | .ok s => .ok (before ++ s)
      | .error cause => .error ⟨template, start, line, cause⟩
  | .call line name arguments =>
      match env.call locals before name arguments with
      | .ok s => .ok (before ++ s)
      | .error cause => .error ⟨template, start, line, cause⟩
  | .ifThen line condition yes _ =>
      match env.holds locals condition with
      | .error cause => .error ⟨template, start, line, cause⟩
      | .ok true => meaningAll env template active locals (start + 1) before yes
      | .ok false => .ok before
  | .ifElse line condition yes _ no _ =>
      match env.holds locals condition with
      | .error cause => .error ⟨template, start, line, cause⟩
      | .ok true => meaningAll env template active locals (start + 1) before yes
      | .ok false => meaningAll env template active locals (start + 1 + sizes yes + 1) before no
  | .loop line item collection body _ =>
      match env.items locals collection with
      | .error cause => .error ⟨template, start, line, cause⟩
      | .ok items =>
          items.zipIdx.foldlM (fun text (v, index) =>
            meaningAll env template active (bindItem locals item v index) (start + 1) text body)
            before
  | .block _ name body _ =>
      match _h : env.override? active name with
      | none => meaningAll env template active locals (start + 1) before body
      | some o =>
          meaningAll env o.template.name (name :: active) locals o.start before o.nodes
  termination_by ((env.inactive active).length, sizeOf node)
  decreasing_by
    rotate_right
    · exact Prod.Lex.left _ _ (Env.length_inactive_cons _h)
    all_goals
      refine Prod.Lex.right _ ?_
      simp only [Node.ifThen.sizeOf_spec, Node.ifElse.sizeOf_spec, Node.loop.sizeOf_spec,
        Node.block.sizeOf_spec]
      omega

/-- The text after nodes in a row, the first of which begins at a position. -/
def meaningAll (env : Env) (template : String) (active : List String) (locals : Dict Value)
    (start : Nat) (before : String) (nodes : List Node) : Except RenderError String :=
  match nodes with
  | [] => .ok before
  | node :: rest =>
      match node.meaning env template active locals start before with
      | .ok text => meaningAll env template active locals (start + node.size) text rest
      | .error e => .error e
  termination_by ((env.inactive active).length, sizeOf nodes)
  decreasing_by
    all_goals exact Prod.Lex.right _ (by simp only [List.cons.sizeOf_spec]; omega)

end

section

variable {env : Env} {active : List String} {name : String}

/-- A block without an override that is to be run stands for its own body. -/
theorem Node.meaning_block_of_none (none : env.override? active name = none) (template : String)
    (locals : Dict Value) (start : Nat) (before : String) (line : Nat) (body : List Node)
    (endLine : Nat) :
    (Node.block line name body endLine).meaning env template active locals start before =
      meaningAll env template active locals (start + 1) before body := by
  rw [meaning]
  split
  · rfl
  · rename_i found
    cases none.symm.trans found

/-- A block with an override that is to be run stands for the override. -/
theorem Node.meaning_block_of_some {o : Override} (chosen : env.override? active name = some o)
    (template : String) (locals : Dict Value) (start : Nat) (before : String) (line : Nat)
    (body : List Node) (endLine : Nat) :
    (Node.block line name body endLine).meaning env template active locals start before =
      meaningAll env o.template.name (name :: active) locals o.start before o.nodes := by
  rw [meaning]
  split
  · rename_i none
    cases none.symm.trans chosen
  · rename_i found
    obtain rfl := Option.some.inj (chosen.symm.trans found)
    rfl

end

/-- The text that a template stands for, or the first error. -/
def Template.meaning (t : Template) (env : Env) : Except RenderError String :=
  meaningAll env t.name [] [] 0 "" t.nodes

end BraceTemplate
