/-
# BraceTemplate.Proofs.Program.Opened — the open constructs in a flat program

Read from its first operation on, a program opens and closes constructs; `Program.opened p i` lists
the positions where the constructs begin that are open in front of position `i`, innermost first.
This says nothing of trees, targets or slots.

Where nodes are laid out, they leave the open constructs as they are (`opened_behind`), so placed
nodes stand inside the constructs around them (`Nested`) and every position of placed nodes belongs
to an operation of one of them, with the constructs around this node (`Nested.exists_owner`).
-/
import BraceTemplate.Proofs.Render.Placement

namespace BraceTemplate

set_option autoImplicit false

/-- The constructs that are open behind an operation, given those in front of it. -/
def Op.opened (i : Nat) (before : List Nat) : Op → List Nat
  | .beginIf _ _ _ _ | .beginFor _ _ _ _ | .beginBlock _ _ => i :: before
  | .endIf _ | .endFor _ _ | .endBlock => before.tail
  | .text _ | .output _ | .call _ _ | .orElse _ _ => before

/-- The constructs that are open behind operations in a row, the first of which has a position. -/
def openedBy (i : Nat) (before : List Nat) : List Instr → List Nat
  | [] => before
  | instr :: rest => openedBy (i + 1) (instr.op.opened i before) rest

/-- The positions where the constructs begin that are open in front of a position, innermost
first. -/
def Program.opened (p : Program) (i : Nat) : List Nat :=
  openedBy 0 [] (p.instrs.toList.take i)

theorem openedBy_append (i : Nat) (before : List Nat) (first second : List Instr) :
    openedBy i before (first ++ second) =
      openedBy (i + first.length) (openedBy i before first) second := by
  induction first generalizing i before with
  | nil => rfl
  | cons instr first ih =>
      rw [List.cons_append, openedBy, ih, openedBy, List.length_cons, Nat.add_right_comm,
        Nat.add_assoc]

/-! ## Nodes leave nothing open -/

mutual

theorem Node.openedBy_layout : ∀ (node : Node) (start depth : Nat) (before : List Nat),
    openedBy start before (node.layout start depth) = before
  | .text _ _, _, _, _ | .output _ _, _, _, _ | .call _ _ _, _, _, _ => rfl
  | .ifThen _ _ yes _, start, depth, before => by
      simp only [Node.layout, openedBy, Op.opened, openedBy_append, openedBy_layoutAll yes,
        List.tail_cons]
  | .ifElse _ _ yes _ no _, start, depth, before => by
      simp only [Node.layout, openedBy, Op.opened, openedBy_append, length_layoutAll,
        openedBy_layoutAll yes, openedBy_layoutAll no, List.tail_cons]
  | .loop _ _ _ body _, start, depth, before => by
      simp only [Node.layout, openedBy, Op.opened, openedBy_append, openedBy_layoutAll body,
        List.tail_cons]
  | .block _ _ body _, start, depth, before => by
      simp only [Node.layout, openedBy, Op.opened, openedBy_append, openedBy_layoutAll body,
        List.tail_cons]

theorem openedBy_layoutAll : ∀ (nodes : List Node) (start depth : Nat) (before : List Nat),
    openedBy start before (layoutAll start depth nodes) = before
  | [], _, _, _ => rfl
  | node :: rest, start, depth, before => by
      rw [layoutAll, openedBy_append, node.openedBy_layout, node.length_layout,
        openedBy_layoutAll rest]

end

namespace Program

variable {p : Program} {i : Nat}

theorem opened_succ {instr : Instr} (found : p.instrs[i]? = some instr) :
    p.opened (i + 1) = instr.op.opened i (p.opened i) := by
  have found' : p.instrs.toList[i]? = some instr := by rwa [Array.getElem?_toList]
  have bound := (List.getElem?_eq_some_iff.1 found').1
  rw [opened, opened, List.take_add_one, found', openedBy_append, List.length_take,
    Nat.min_eq_left (Nat.le_of_lt bound), Nat.zero_add]
  rfl

/-- Behind operations in a row those constructs are open that they leave open. -/
theorem opened_segment {ops : List Instr} (segment : Segment p.instrs i ops) :
    p.opened (i + ops.length) = openedBy i (p.opened i) ops := by
  induction ops generalizing i with
  | nil => rfl
  | cons instr ops ih =>
      rw [openedBy, ← opened_succ segment.head, ← ih segment.tail, List.length_cons,
        Nat.add_right_comm, Nat.add_assoc]

/-- Behind the last operation nothing opens or closes. -/
theorem opened_of_size_le (behind : p.instrs.size ≤ i) : p.opened i = p.opened p.instrs.size := by
  rw [opened, opened, List.take_of_length_le (by simpa using behind),
    List.take_of_length_le (by simp)]

end Program

/-- Nodes are placed inside constructs that begin at given positions, innermost first. -/
structure Nested (p : Program) (start : Nat) (around : List Nat) (nodes : List Node) : Prop where
  placed : Placed p start around.length nodes
  opened : p.opened start = around

/-- The tree of a template stands inside no construct. -/
theorem Template.nested (t : Template) : Nested t.program 0 [] t.nodes :=
  ⟨t.placed, rfl⟩

namespace Nested

variable {p : Program} {start : Nat} {around : List Nat} {node : Node} {nodes rest : List Node}

/-- Placed nodes leave no construct open. -/
theorem opened_behind (nested : Nested p start around nodes) :
    p.opened (start + sizes nodes) = around := by
  have behind := Program.opened_segment nested.placed.segment
  rwa [length_layoutAll, openedBy_layoutAll, nested.opened] at behind

theorem behind (nested : Nested p start around (node :: rest)) :
    Nested p (start + node.size) around rest := by
  refine ⟨nested.placed.behind, ?_⟩
  have behind := Program.opened_segment nested.placed.head
  rwa [node.length_layout, node.openedBy_layout, nested.opened] at behind

variable {line elseLine endLine : Nat} {condition collection : Expr} {item name : String}
  {yes no body : List Node}

theorem ifThen (nested : Nested p start around (.ifThen line condition yes endLine :: rest)) :
    Nested p (start + 1) (start :: around) yes := by
  obtain ⟨first, inside, -⟩ := nested.placed.ifThen
  exact ⟨inside, by rw [Program.opened_succ first, nested.opened]; rfl⟩

theorem ifElse
    (nested : Nested p start around (.ifElse line condition yes elseLine no endLine :: rest)) :
    Nested p (start + 1) (start :: around) yes ∧
      Nested p (start + 1 + sizes yes + 1) (start :: around) no := by
  obtain ⟨first, inside, middle, inside', -⟩ := nested.placed.ifElse
  have yes : Nested p (start + 1) (start :: around) yes :=
    ⟨inside, by rw [Program.opened_succ first, nested.opened]; rfl⟩
  exact ⟨yes, inside', by rw [Program.opened_succ middle, yes.opened_behind]; rfl⟩

theorem loop (nested : Nested p start around (.loop line item collection body endLine :: rest)) :
    Nested p (start + 1) (start :: around) body := by
  obtain ⟨first, inside, -⟩ := nested.placed.loop
  exact ⟨inside, by rw [Program.opened_succ first, nested.opened]; rfl⟩

theorem block (nested : Nested p start around (.block line name body endLine :: rest)) :
    Nested p (start + 1) (start :: around) body := by
  obtain ⟨first, inside, -⟩ := nested.placed.block
  exact ⟨inside, by rw [Program.opened_succ first, nested.opened]; rfl⟩

end Nested

/-! ## Owners -/

/-- The positions of a node's own operations. -/
def Node.owns (start : Nat) : Node → List Nat
  | .text _ _ | .output _ _ | .call _ _ _ => [start]
  | .ifThen _ _ yes _ => [start, start + 1 + sizes yes]
  | .ifElse _ _ yes _ no _ =>
      [start, start + 1 + sizes yes, start + 1 + sizes yes + 1 + sizes no]
  | .loop _ _ _ body _ | .block _ _ body _ => [start, start + 1 + sizes body]

/-- A position belongs to an operation of a placed node. -/
def Program.Owned (p : Program) (i : Nat) : Prop :=
  ∃ start around node rest, Nested p start around (node :: rest) ∧ i ∈ node.owns start

mutual

theorem Node.owned : ∀ (node : Node) {p : Program} {start : Nat} {around : List Nat}
    {rest : List Node}, Nested p start around (node :: rest) →
      ∀ {i : Nat}, start ≤ i → i < start + node.size → p.Owned i
  | .text _ _, _, start, _, _, nested, i, after, before
  | .output _ _, _, start, _, _, nested, i, after, before
  | .call _ _ _, _, start, _, _, nested, i, after, before => by
      simp only [Node.size] at before
      obtain rfl : i = start := by omega
      exact ⟨_, _, _, _, nested, List.mem_singleton.2 rfl⟩
  | .ifThen _ _ yes _, p, start, _, _, nested, i, after, before => by
      simp only [Node.size] at before
      by_cases inside : start + 1 ≤ i ∧ i < start + 1 + sizes yes
      · exact ownedAll yes nested.ifThen inside.1 inside.2
      · refine ⟨_, _, _, _, nested, ?_⟩
        simp only [Node.owns, List.mem_cons, List.not_mem_nil, or_false]
        omega
  | .ifElse _ _ yes _ no _, p, start, _, _, nested, i, after, before => by
      simp only [Node.size] at before
      by_cases first : start + 1 ≤ i ∧ i < start + 1 + sizes yes
      · exact ownedAll yes nested.ifElse.1 first.1 first.2
      by_cases second : start + 1 + sizes yes + 1 ≤ i ∧ i < start + 1 + sizes yes + 1 + sizes no
      · exact ownedAll no nested.ifElse.2 second.1 second.2
      · refine ⟨_, _, _, _, nested, ?_⟩
        simp only [Node.owns, List.mem_cons, List.not_mem_nil, or_false]
        omega
  | .loop _ _ _ body _, p, start, _, _, nested, i, after, before => by
      simp only [Node.size] at before
      by_cases inside : start + 1 ≤ i ∧ i < start + 1 + sizes body
      · exact ownedAll body nested.loop inside.1 inside.2
      · refine ⟨_, _, _, _, nested, ?_⟩
        simp only [Node.owns, List.mem_cons, List.not_mem_nil, or_false]
        omega
  | .block _ _ body _, p, start, _, _, nested, i, after, before => by
      simp only [Node.size] at before
      by_cases inside : start + 1 ≤ i ∧ i < start + 1 + sizes body
      · exact ownedAll body nested.block inside.1 inside.2
      · refine ⟨_, _, _, _, nested, ?_⟩
        simp only [Node.owns, List.mem_cons, List.not_mem_nil, or_false]
        omega

/-- Every position of placed nodes belongs to one of their operations. -/
theorem ownedAll : ∀ (nodes : List Node) {p : Program} {start : Nat} {around : List Nat},
    Nested p start around nodes → ∀ {i : Nat}, start ≤ i → i < start + sizes nodes → p.Owned i
  | [], _, start, _, _, i, after, before => by
      simp only [sizes] at before
      omega
  | node :: rest, p, start, _, nested, i, after, before => by
      simp only [sizes] at before
      by_cases inside : i < start + node.size
      · exact node.owned nested after inside
      · exact ownedAll rest nested.behind (by omega) (by omega)

end

theorem Template.owned (t : Template) {i : Nat} (inside : i < t.program.instrs.size) :
    t.program.Owned i := by
  refine ownedAll t.nodes t.nested (Nat.zero_le i) ?_
  have size : t.program.instrs.size = 0 + sizes t.nodes := t.opCount_eq_stop
  omega

end BraceTemplate
