/-
# BraceTemplate.Program.Layout — the program of a tree

Nodes are laid out one after the other. A construct at position `at` takes `size` positions: its
begin operation, its body, and its end operation, whose positions follow from the sizes. A construct
at depth `depth` uses slot `depth`, so nested ones never share a slot.

* `length_layoutAll`: nodes take as many positions as their size;
* `layoutAll_append`, `blocksAll_append`: nodes in front of other ones are laid out first.
-/
import BraceTemplate.Program
import BraceTemplate.Tree

namespace BraceTemplate

set_option autoImplicit false

mutual

/-- The operations of a node that begins at a position and has `depth` constructs around it. -/
def Node.layout (start depth : Nat) : Node → List Instr
  | .text line s => [⟨.text s, line⟩]
  | .output line expr => [⟨.output expr, line⟩]
  | .call line name arguments => [⟨.call name arguments, line⟩]
  | .ifThen line condition yes endLine =>
      let endAt := start + 1 + sizes yes
      ⟨.beginIf condition depth none endAt, line⟩ ::
        (layoutAll (start + 1) (depth + 1) yes ++ [⟨.endIf depth, endLine⟩])
  | .ifElse line condition yes elseLine no endLine =>
      let elseAt := start + 1 + sizes yes
      let endAt := elseAt + 1 + sizes no
      ⟨.beginIf condition depth (some elseAt) endAt, line⟩ ::
        (layoutAll (start + 1) (depth + 1) yes ++ ⟨.orElse depth endAt, elseLine⟩ ::
          (layoutAll (elseAt + 1) (depth + 1) no ++ [⟨.endIf depth, endLine⟩]))
  | .loop line item collection body endLine =>
      let endAt := start + 1 + sizes body
      ⟨.beginFor item collection depth endAt, line⟩ ::
        (layoutAll (start + 1) (depth + 1) body ++ [⟨.endFor depth (start + 1), endLine⟩])
  | .block line name body endLine =>
      let endAt := start + 1 + sizes body
      ⟨.beginBlock name endAt, line⟩ ::
        (layoutAll (start + 1) (depth + 1) body ++ [⟨.endBlock, endLine⟩])

/-- The operations of nodes in a row. -/
def layoutAll (start depth : Nat) : List Node → List Instr
  | [] => []
  | node :: rest => node.layout start depth ++ layoutAll (start + node.size) depth rest

end

mutual

/-- The blocks of a node that begins at a position: the name, the position of the body and the
nodes of the body. -/
def Node.blocks (start : Nat) : Node → List (String × Nat × List Node)
  | .text _ _ | .output _ _ | .call _ _ _ => []
  | .ifThen _ _ yes _ => blocksAll (start + 1) yes
  | .ifElse _ _ yes _ no _ =>
      blocksAll (start + 1) yes ++ blocksAll (start + 1 + sizes yes + 1) no
  | .loop _ _ _ body _ => blocksAll (start + 1) body
  | .block _ name body _ => (name, start + 1, body) :: blocksAll (start + 1) body

/-- The blocks of nodes in a row. -/
def blocksAll (start : Nat) : List Node → List (String × Nat × List Node)
  | [] => []
  | node :: rest => node.blocks start ++ blocksAll (start + node.size) rest

end

/-! ## Lengths -/

mutual

theorem Node.length_layout :
    ∀ (node : Node) (start depth : Nat), (node.layout start depth).length = node.size
  | .text _ _, _, _ | .output _ _, _, _ | .call _ _ _, _, _ => rfl
  | .ifThen _ _ yes _, start, depth => by
      simp only [Node.layout, Node.size, List.length_cons, List.length_append, List.length_nil,
        length_layoutAll yes]
  | .ifElse _ _ yes _ no _, start, depth => by
      simp only [Node.layout, Node.size, List.length_cons, List.length_append, List.length_nil,
        length_layoutAll yes, length_layoutAll no]
      omega
  | .loop _ _ _ body _, start, depth => by
      simp only [Node.layout, Node.size, List.length_cons, List.length_append, List.length_nil,
        length_layoutAll body]
  | .block _ _ body _, start, depth => by
      simp only [Node.layout, Node.size, List.length_cons, List.length_append, List.length_nil,
        length_layoutAll body]

theorem length_layoutAll :
    ∀ (nodes : List Node) (start depth : Nat), (layoutAll start depth nodes).length = sizes nodes
  | [], _, _ => rfl
  | node :: rest, start, depth => by
      simp only [layoutAll, sizes, List.length_append, node.length_layout, length_layoutAll rest]

end

/-! ## Nodes in front of other ones -/

section

variable (first second : List Node)

theorem depths_append : depths (first ++ second) = max (depths first) (depths second) := by
  induction first with
  | nil => exact (Nat.zero_max _).symm
  | cons node first ih => rw [List.cons_append, depths, ih, depths, Nat.max_assoc]

theorem layoutAll_append (start depth : Nat) :
    layoutAll start depth (first ++ second) =
      layoutAll start depth first ++ layoutAll (start + sizes first) depth second := by
  induction first generalizing start with
  | nil => rfl
  | cons node first ih =>
      rw [List.cons_append, layoutAll, ih, layoutAll, List.append_assoc, sizes, Nat.add_assoc]

theorem blocksAll_append (start : Nat) :
    blocksAll start (first ++ second) =
      blocksAll start first ++ blocksAll (start + sizes first) second := by
  induction first generalizing start with
  | nil => rfl
  | cons node first ih =>
      rw [List.cons_append, blocksAll, ih, blocksAll, List.append_assoc, sizes, Nat.add_assoc]

end

namespace Program

/-- The range of nodes that begin at a position. -/
def rangeOf (start : Nat) (nodes : List Node) : Range :=
  ⟨start, start + sizes nodes⟩

/-- The program of a tree. -/
def ofNodes (nodes : List Node) : Program :=
  { instrs := (layoutAll 0 0 nodes).toArray
    slotCount := depths nodes
    blocks := Dict.ofEntries
      ((blocksAll 0 nodes).map fun (name, start, body) => (name, rangeOf start body)) }

end Program

end BraceTemplate
