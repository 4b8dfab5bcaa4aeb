/-
# BraceTemplate.Proofs.Render.Around — the constructs around a position

An `if` or a loop reaches from behind its begin operation up to and including its end operation.
The begin operation alone says where that is, which slot the construct uses, and in which branch a
position stands (`Op.around?`), so the constructs around a position can be read off the operations
of a range (`Program.around`).

Operations that are laid out from nodes are nested: behind a row of nodes none of its constructs is
around any more (`aroundIn_behind`), and around a position in a body there are the construct itself
and those in the body (`aroundIn_ifThen`, `aroundIn_ifElse`, `aroundIn_loop`, `aroundIn_block`).
-/
import BraceTemplate.Proofs.Render.Placement

namespace BraceTemplate

set_option autoImplicit false

/-- The place of a position in a construct around it. -/
inductive Place where
  /-- In the first branch of an `if`, up to and including its `else`. -/
  | first
  /-- In the second branch of an `if`. -/
  | second
  /-- At the end of an `if`. -/
  | ifEnd
  /-- In the body of a loop over items of a name, up to and including the loop's end. -/
  | body (item : String)
  deriving DecidableEq, Repr

/-- A construct around a position: where it begins, the slot that it uses, and the place that the
position has in it. -/
structure Around where
  begins : Nat
  slot : Nat
  place : Place
  deriving DecidableEq, Repr

namespace Op

/-- The slot that an operation uses. -/
def slot? : Op → Option Nat
  | .beginIf _ slot _ _ | .orElse slot _ | .endIf slot | .beginFor _ _ slot _ | .endFor slot _ =>
      some slot
  | .text _ | .output _ | .call _ _ | .beginBlock _ _ | .endBlock => none

/-- The construct that an operation at `begins` begins, if it is around a position. -/
def around? (begins ip : Nat) : Op → Option Around
  | .beginIf _ slot elseAt endAt =>
      if begins < ip ∧ ip ≤ endAt then
        some ⟨begins, slot,
          if ip = endAt then .ifEnd else if ip ≤ elseAt.getD endAt then .first else .second⟩
      else none
  | .beginFor item _ slot endAt =>
      if begins < ip ∧ ip ≤ endAt then some ⟨begins, slot, .body item⟩ else none
  | .text _ | .output _ | .call _ _ | .orElse _ _ | .endIf _ | .endFor _ _ | .beginBlock _ _
  | .endBlock => none

theorem around?_before {op : Op} {begins ip : Nat} (before : ip ≤ begins) :
    op.around? begins ip = none := by
  cases op <;> simp only [around?] <;> rw [if_neg (by omega)]

end Op

/-- The constructs around a position that are begun by operations in a row, outermost first. -/
def aroundIn (begins ip : Nat) : List Instr → List Around
  | [] => []
  | instr :: rest => (instr.op.around? begins ip).toList ++ aroundIn (begins + 1) ip rest

/-- The constructs around a position that begin in a range, outermost first. -/
def Program.around (p : Program) (range : Range) (ip : Nat) : List Around :=
  aroundIn range.start ip (p.instrs.extract range.start range.stop).toList

theorem aroundIn_append (begins ip : Nat) (first second : List Instr) :
    aroundIn begins ip (first ++ second) =
      aroundIn begins ip first ++ aroundIn (begins + first.length) ip second := by
  induction first generalizing begins with
  | nil => rfl
  | cons instr first ih =>
      rw [List.cons_append, aroundIn, ih, aroundIn, List.append_assoc, List.length_cons,
        Nat.add_right_comm, Nat.add_assoc begins]

theorem aroundIn_before {begins ip : Nat} (ops : List Instr) (before : ip ≤ begins) :
    aroundIn begins ip ops = [] := by
  induction ops generalizing begins with
  | nil => rfl
  | cons instr rest ih =>
      rw [aroundIn, Op.around?_before before, ih (Nat.le_succ_of_le before)]
      rfl

/-! ## Nodes -/

section

mutual

theorem Node.aroundIn_behind : ∀ (node : Node) {start ip : Nat} (depth : Nat),
    start + node.size ≤ ip → aroundIn start ip (node.layout start depth) = []
  | .text _ _, _, _, _, _ | .output _ _, _, _, _, _ | .call _ _ _, _, _, _, _ => rfl
  | .ifThen _ _ yes _, start, ip, depth, behind => by
      simp only [Node.size] at behind
      simp only [Node.layout, aroundIn, aroundIn_append, Op.around?]
      rw [if_neg (by omega), aroundIn_behindAll yes (depth + 1) (by omega)]
      rfl
  | .ifElse _ _ yes _ no _, start, ip, depth, behind => by
      simp only [Node.size] at behind
      simp only [Node.layout, aroundIn, aroundIn_append, Op.around?, length_layoutAll]
      rw [if_neg (by omega), aroundIn_behindAll yes (depth + 1) (by omega),
        aroundIn_behindAll no (depth + 1) (by omega)]
      rfl
  | .loop _ _ _ body _, start, ip, depth, behind => by
      simp only [Node.size] at behind
      simp only [Node.layout, aroundIn, aroundIn_append, Op.around?]
      rw [if_neg (by omega), aroundIn_behindAll body (depth + 1) (by omega)]
      rfl
  | .block _ _ body _, start, ip, depth, behind => by
      simp only [Node.size] at behind
      simp only [Node.layout, aroundIn, aroundIn_append, Op.around?]
      rw [aroundIn_behindAll body (depth + 1) (by omega)]
      rfl

theorem aroundIn_behindAll : ∀ (nodes : List Node) {start ip : Nat} (depth : Nat),
    start + sizes nodes ≤ ip → aroundIn start ip (layoutAll start depth nodes) = []
  | [], _, _, _, _ => rfl
  | node :: rest, start, ip, depth, behind => by
      simp only [sizes] at behind
      rw [layoutAll, aroundIn_append, node.aroundIn_behind depth (by omega), node.length_layout,
        aroundIn_behindAll rest depth (by omega)]
      rfl

end

variable {start ip depth : Nat}

/-- Behind the first node only the others count. -/
theorem aroundIn_rest {node : Node} (rest : List Node) (behind : start + node.size ≤ ip) :
    aroundIn start ip (layoutAll start depth (node :: rest)) =
      aroundIn (start + node.size) ip (layoutAll (start + node.size) depth rest) := by
  rw [layoutAll, aroundIn_append, node.aroundIn_behind depth behind, node.length_layout]
  rfl

/-- Up to the end of the first node only it counts. -/
theorem aroundIn_first {node : Node} (rest : List Node) (inside : ip ≤ start + node.size) :
    aroundIn start ip (layoutAll start depth (node :: rest)) =
      aroundIn start ip (node.layout start depth) := by
  rw [layoutAll, aroundIn_append, node.length_layout, aroundIn_before _ inside, List.append_nil]

variable {line elseLine endLine : Nat} {condition collection : Expr} {item name : String}
  {yes no body : List Node} (rest : List Node)

theorem aroundIn_ifThen (after : start < ip) (inside : ip ≤ start + 1 + sizes yes) :
    aroundIn start ip (layoutAll start depth (.ifThen line condition yes endLine :: rest)) =
      ⟨start, depth, if ip = start + 1 + sizes yes then .ifEnd else .first⟩ ::
        aroundIn (start + 1) ip (layoutAll (start + 1) (depth + 1) yes) := by
  rw [aroundIn_first rest (by simp only [Node.size]; omega)]
  simp only [Node.layout, aroundIn, aroundIn_append, Op.around?, Option.getD_none]
  rw [if_pos ⟨after, inside⟩, if_pos inside]
  simp

theorem aroundIn_ifElse (after : start < ip)
    (inside : ip ≤ start + 1 + sizes yes + 1 + sizes no) :
    aroundIn start ip
        (layoutAll start depth (.ifElse line condition yes elseLine no endLine :: rest)) =
      ⟨start, depth,
          if ip = start + 1 + sizes yes + 1 + sizes no then .ifEnd
          else if ip ≤ start + 1 + sizes yes then .first else .second⟩ ::
        (aroundIn (start + 1) ip (layoutAll (start + 1) (depth + 1) yes) ++
          aroundIn (start + 1 + sizes yes + 1) ip
            (layoutAll (start + 1 + sizes yes + 1) (depth + 1) no)) := by
  rw [aroundIn_first rest (by simp only [Node.size]; omega)]
  simp only [Node.layout, aroundIn, aroundIn_append, Op.around?, Option.getD_some, length_layoutAll]
  rw [if_pos ⟨after, inside⟩]
  simp

theorem aroundIn_loop (after : start < ip) (inside : ip ≤ start + 1 + sizes body) :
    aroundIn start ip (layoutAll start depth (.loop line item collection body endLine :: rest)) =
      ⟨start, depth, .body item⟩ ::
        aroundIn (start + 1) ip (layoutAll (start + 1) (depth + 1) body) := by
  rw [aroundIn_first rest (by simp only [Node.size]; omega)]
  simp only [Node.layout, aroundIn, aroundIn_append, Op.around?]
  rw [if_pos ⟨after, inside⟩]
  simp

theorem aroundIn_block (inside : ip ≤ start + 1 + sizes body) :
    aroundIn start ip (layoutAll start depth (.block line name body endLine :: rest)) =
      aroundIn (start + 1) ip (layoutAll (start + 1) (depth + 1) body) := by
  rw [aroundIn_first rest (by simp only [Node.size]; omega)]
  simp only [Node.layout, aroundIn, aroundIn_append, Op.around?]
  simp

end

/-- The operations of placed nodes are those that the nodes are laid out to. -/
theorem Placed.around {p : Program} {start depth : Nat} {nodes : List Node}
    (placed : Placed p start depth nodes) (ip : Nat) :
    p.around (Program.rangeOf start nodes) ip =
      aroundIn start ip (layoutAll start depth nodes) := by
  have ops : (p.instrs.extract start (start + sizes nodes)).toList =
      layoutAll start depth nodes := by
    apply List.ext_getElem?
    intro i
    rw [Array.getElem?_toList, Array.getElem?_extract]
    by_cases inside : i < sizes nodes
    · have bound : i < (layoutAll start depth nodes).length := by rwa [length_layoutAll]
      have found := List.getElem?_eq_getElem bound
      have there := placed.segment i _ found
      have := (Array.getElem?_eq_some_iff.1 there).1
      rw [if_pos (by omega), there, found]
    · rw [if_neg (by omega), List.getElem?_eq_none (by rw [length_layoutAll]; omega)]
  rw [Program.around, Program.rangeOf, ops]

end BraceTemplate
