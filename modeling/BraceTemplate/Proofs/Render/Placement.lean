/-
# BraceTemplate.Proofs.Render.Placement — where the operations of nodes stand

`Placed p start depth nodes` says that a program has the operations of nodes from a position on, as
they are laid out at a depth, and has slots for all constructs in them. A template places its whole
tree (`Template.placed`); whoever places nodes in a row places the first and those behind it
(`Placed.first`, `Placed.behind`), and whoever places a construct places its bodies one level
deeper, between the begin and the end operation that know each other (`Placed.ifThen`,
`Placed.ifElse`, `Placed.loop`, `Placed.block`). So the body of every block is placed, and with it
what an override runs (`Override.placed`).
-/
import BraceTemplate.Registry

namespace BraceTemplate

set_option autoImplicit false

theorem Node.size_pos (node : Node) : 0 < node.size := by
  cases node <;> simp only [Node.size] <;> omega

/-! ## Segments -/

/-- Operations stand in a row from a position on. -/
def Segment (instrs : Array Instr) (start : Nat) (ops : List Instr) : Prop :=
  ∀ (i : Nat) (op : Instr), ops[i]? = some op → instrs[start + i]? = some op

namespace Segment

variable {instrs : Array Instr} {start : Nat} {op : Instr} {first second : List Instr}

theorem head (segment : Segment instrs start (op :: second)) : instrs[start]? = some op :=
  segment 0 op rfl

theorem tail (segment : Segment instrs start (op :: second)) :
    Segment instrs (start + 1) second := by
  intro i found at_i
  have := segment (i + 1) found at_i
  rwa [← Nat.add_assoc, Nat.add_right_comm] at this

theorem left (segment : Segment instrs start (first ++ second)) : Segment instrs start first := by
  intro i found at_i
  have bound := (List.getElem?_eq_some_iff.1 at_i).1
  exact segment i found (by rw [List.getElem?_append_left bound, at_i])

theorem right (segment : Segment instrs start (first ++ second)) :
    Segment instrs (start + first.length) second := by
  intro i found at_i
  rw [Nat.add_assoc]
  apply segment
  rw [List.getElem?_append_right (Nat.le_add_right _ _), Nat.add_sub_cancel_left, at_i]

end Segment

/-! ## Placed nodes -/

/-- A program has the operations of nodes from a position on, and slots for the constructs in them,
the outermost of which use the slot of a given depth. -/
structure Placed (p : Program) (start depth : Nat) (nodes : List Node) : Prop where
  segment : Segment p.instrs start (layoutAll start depth nodes)
  room : depth + depths nodes ≤ p.slotCount

/-- The program of a template places its tree. -/
theorem Template.placed (t : Template) : Placed t.program 0 0 t.nodes := by
  rw [t.program_eq]
  refine ⟨fun i op found => ?_, ?_⟩
  · simpa only [Program.ofNodes, Nat.zero_add, List.getElem?_toArray] using found
  · simp only [Program.ofNodes, Nat.zero_add, Nat.le_refl]

theorem Template.opCount_eq (t : Template) : t.opCount = sizes t.nodes := by
  rw [Template.opCount, t.program_eq]
  simp only [Program.ofNodes, List.size_toArray, length_layoutAll]

/-- The end of the tree that is placed at the beginning is the end of the program. -/
theorem Template.opCount_eq_stop (t : Template) : t.opCount = 0 + sizes t.nodes := by
  rw [t.opCount_eq, Nat.zero_add]

namespace Placed

variable {p : Program} {start depth : Nat} {node : Node} {rest : List Node}

/-- The operations of the first node. -/
theorem head (placed : Placed p start depth (node :: rest)) :
    Segment p.instrs start (node.layout start depth) := by
  have segment := placed.segment
  rw [layoutAll] at segment
  exact segment.left

theorem head_room (placed : Placed p start depth (node :: rest)) :
    depth + node.depth ≤ p.slotCount := by
  have room := placed.room
  rw [depths] at room
  omega

theorem first (placed : Placed p start depth (node :: rest)) : Placed p start depth [node] := by
  refine ⟨?_, ?_⟩
  · rw [layoutAll, layoutAll, List.append_nil]
    exact placed.head
  · have room := placed.head_room
    rwa [depths, depths, Nat.max_zero]

theorem behind (placed : Placed p start depth (node :: rest)) :
    Placed p (start + node.size) depth rest := by
  refine ⟨?_, ?_⟩
  · have segment := placed.segment
    rw [layoutAll] at segment
    have later := segment.right
    rwa [node.length_layout] at later
  · have room := placed.room
    rw [depths] at room
    omega

variable {line elseLine endLine : Nat} {condition collection : Expr} {item name : String}
  {yes no body : List Node}

theorem ifThen (placed : Placed p start depth (.ifThen line condition yes endLine :: rest)) :
    p.instrs[start]? = some ⟨.beginIf condition depth none (start + 1 + sizes yes), line⟩ ∧
      Placed p (start + 1) (depth + 1) yes ∧
      p.instrs[start + 1 + sizes yes]? = some ⟨.endIf depth, endLine⟩ := by
  have segment := placed.head
  have room := placed.head_room
  simp only [Node.layout, Node.depth] at segment room
  refine ⟨segment.head, ⟨segment.tail.left, by omega⟩, ?_⟩
  have last := segment.tail.right.head
  rwa [length_layoutAll] at last

theorem ifElse
    (placed : Placed p start depth (.ifElse line condition yes elseLine no endLine :: rest)) :
    let elseAt := start + 1 + sizes yes
    let endAt := elseAt + 1 + sizes no
    p.instrs[start]? = some ⟨.beginIf condition depth (some elseAt) endAt, line⟩ ∧
      Placed p (start + 1) (depth + 1) yes ∧
      p.instrs[elseAt]? = some ⟨.orElse depth endAt, elseLine⟩ ∧
      Placed p (elseAt + 1) (depth + 1) no ∧
      p.instrs[endAt]? = some ⟨.endIf depth, endLine⟩ := by
  have segment := placed.head
  have room := placed.head_room
  simp only [Node.layout, Node.depth] at segment room
  have middle := segment.tail.right
  rw [length_layoutAll] at middle
  have last := middle.tail.right.head
  rw [length_layoutAll] at last
  exact ⟨segment.head, ⟨segment.tail.left, by omega⟩, middle.head,
    ⟨middle.tail.left, by omega⟩, last⟩

theorem loop (placed : Placed p start depth (.loop line item collection body endLine :: rest)) :
    p.instrs[start]? = some ⟨.beginFor item collection depth (start + 1 + sizes body), line⟩ ∧
      Placed p (start + 1) (depth + 1) body ∧
      p.instrs[start + 1 + sizes body]? = some ⟨.endFor depth (start + 1), endLine⟩ := by
  have segment := placed.head
  have room := placed.head_room
  simp only [Node.layout, Node.depth] at segment room
  refine ⟨segment.head, ⟨segment.tail.left, by omega⟩, ?_⟩
  have last := segment.tail.right.head
  rwa [length_layoutAll] at last

theorem block (placed : Placed p start depth (.block line name body endLine :: rest)) :
    p.instrs[start]? = some ⟨.beginBlock name (start + 1 + sizes body), line⟩ ∧
      Placed p (start + 1) (depth + 1) body ∧
      p.instrs[start + 1 + sizes body]? = some ⟨.endBlock, endLine⟩ := by
  have segment := placed.head
  have room := placed.head_room
  simp only [Node.layout, Node.depth] at segment room
  refine ⟨segment.head, ⟨segment.tail.left, by omega⟩, ?_⟩
  have last := segment.tail.right.head
  rwa [length_layoutAll] at last

end Placed

/-! ## Blocks -/

section

variable {p : Program} {name : String} {position : Nat} {body : List Node}

mutual

theorem Node.placed_of_mem_blocks : ∀ (node : Node) {start depth : Nat} {rest : List Node},
    Placed p start depth (node :: rest) → (name, position, body) ∈ node.blocks start →
      position + sizes body < start + node.size ∧ ∃ depth, Placed p position depth body
  | .text _ _, _, _, _, _, mem | .output _ _, _, _, _, _, mem | .call _ _ _, _, _, _, _, mem => by
      cases mem
  | .ifThen _ _ yes _, start, depth, rest, placed, mem => by
      obtain ⟨before, there⟩ := placed_of_mem_blocksAll yes placed.ifThen.2.1 mem
      exact ⟨by simp only [Node.size]; omega, there⟩
  | .ifElse _ _ yes _ no _, start, depth, rest, placed, mem => by
      rcases List.mem_append.1 mem with mem | mem
      · obtain ⟨before, there⟩ := placed_of_mem_blocksAll yes placed.ifElse.2.1 mem
        exact ⟨by simp only [Node.size]; omega, there⟩
      · obtain ⟨before, there⟩ := placed_of_mem_blocksAll no placed.ifElse.2.2.2.1 mem
        exact ⟨by simp only [Node.size]; omega, there⟩
  | .loop _ _ _ inner _, start, depth, rest, placed, mem => by
      obtain ⟨before, there⟩ := placed_of_mem_blocksAll inner placed.loop.2.1 mem
      exact ⟨by simp only [Node.size]; omega, there⟩
  | .block _ _ inner _, start, depth, rest, placed, mem => by
      rcases List.mem_cons.1 mem with own | mem
      · obtain ⟨-, rfl, rfl⟩ : _ ∧ position = start + 1 ∧ body = inner := by simpa using own
        exact ⟨by simp only [Node.size]; omega, _, placed.block.2.1⟩
      · obtain ⟨before, there⟩ := placed_of_mem_blocksAll inner placed.block.2.1 mem
        exact ⟨by simp only [Node.size]; omega, there⟩

theorem placed_of_mem_blocksAll : ∀ (nodes : List Node) {start depth : Nat},
    Placed p start depth nodes → (name, position, body) ∈ blocksAll start nodes →
      position + sizes body < start + sizes nodes ∧ ∃ depth, Placed p position depth body
  | [], _, _, _, mem => by cases mem
  | node :: rest, start, depth, placed, mem => by
      rcases List.mem_append.1 mem with mem | mem
      · obtain ⟨before, there⟩ := node.placed_of_mem_blocks placed mem
        exact ⟨by simp only [sizes]; omega, there⟩
      · obtain ⟨before, there⟩ := placed_of_mem_blocksAll rest placed.behind mem
        exact ⟨by simp only [sizes]; omega, there⟩

end

end

/-- The operations of an override stand in its template. -/
theorem Override.placed (o : Override) :
    o.range.stop ≤ o.template.opCount ∧
      ∃ depth, Placed o.template.program o.start depth o.nodes := by
  rw [o.template.opCount_eq]
  simp only [range, Program.rangeOf]
  rcases o.part with ⟨start, nodes⟩ | ⟨name, mem⟩
  · rw [start, nodes]
    exact ⟨by omega, 0, o.template.placed⟩
  · obtain ⟨before, there⟩ := placed_of_mem_blocksAll o.template.nodes o.template.placed mem
    exact ⟨by omega, there⟩

end BraceTemplate
