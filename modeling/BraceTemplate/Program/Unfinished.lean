/-
# BraceTemplate.Program.Unfinished — the program of a draft

A program is written in one pass while its targets are still open; a tree is arranged first and laid
out afterwards. `Draft.assembly` says how much of the program is written when a draft has been made:
the nodes so far as they will be laid out, and the begin operations of open constructs with their
targets left open.

* `layoutWithin_cons`, `layoutWithin_nil`, `layoutWithin_open`: what a node, a construct that is
  opened and an open construct with its nodes add to the operations so far;
* `getLast?_layoutWithin`: the last operation writes text only if the last node is text;
* `waits_layoutWithin`: where the stack points to, operations wait for their targets.
-/
import BraceTemplate.Program.Assembly
import BraceTemplate.Program.Layout
import BraceTemplate.Tree.Draft

namespace BraceTemplate

set_option autoImplicit false

namespace Opening

/-- The operations of an open construct in front of its last branch, with targets left open. -/
def layout (start depth line : Nat) : Opening → List Instr
  | .ifThen condition => [⟨.beginIf condition depth none 0, line⟩]
  | .ifElse condition yes elseLine =>
      ⟨.beginIf condition depth none 0, line⟩ ::
        (layoutAll (start + 1) (depth + 1) yes ++ [⟨.orElse depth 0, elseLine⟩])
  | .loop item collection => [⟨.beginFor item collection depth 0, line⟩]
  | .block name => [⟨.beginBlock name 0, line⟩]

/-- What the stack keeps of an open construct that begins at a position. -/
def pending (start : Nat) : Opening → Pending
  | .ifThen _ => .conditional none
  | .ifElse _ yes _ => .conditional (some (start + 1 + sizes yes))
  | .loop _ _ => .loop
  | .block name => .block name

/-- How many constructs are nested in each other in the branches that are finished. -/
def depth : Opening → Nat
  | .ifElse _ yes _ => depths yes
  | .ifThen _ | .loop _ _ | .block _ => 0

/-- The blocks in the branches that are finished. -/
def blocks (start : Nat) : Opening → List (String × Nat × List Node)
  | .ifElse _ yes _ => blocksAll (start + 1) yes
  | .ifThen _ | .loop _ _ | .block _ => []

theorem construct_pending (opening : Opening) (start : Nat) :
    (opening.pending start).construct = opening.construct := by
  cases opening <;> rfl

end Opening

/-- The operations in front of the nodes of the innermost open construct. -/
def layoutAround : List Enclosing → List Instr
  | [] => []
  | e :: around =>
      let outer := layoutAround around
      let front := outer ++ layoutAll outer.length around.length e.before.reverse
      front ++ e.opening.layout front.length around.length e.line

/-- All operations so far: those in front of the innermost open construct's nodes, and its nodes,
the latest of which comes first. -/
def layoutWithin (around : List Enclosing) (body : List Node) : List Instr :=
  let outer := layoutAround around
  outer ++ layoutAll outer.length around.length body.reverse

/-- The open constructs and where they begin. -/
def stackAround : List Enclosing → List Begun
  | [] => []
  | e :: around =>
      let start := (layoutWithin around e.before).length
      ⟨e.opening.pending start, start, e.line⟩ :: stackAround around

/-- The greatest number of constructs that have been open at a time. -/
def depthAround : List Enclosing → Nat
  | [] => 0
  | e :: around =>
      max (max (depthAround around) (around.length + depths e.before.reverse))
        (around.length + 1 + e.opening.depth)

/-- The closed blocks in front of the innermost open construct's nodes. -/
def blocksAround : List Enclosing → List (String × Nat × List Node)
  | [] => []
  | e :: around =>
      blocksAround around ++ blocksAll (layoutAround around).length e.before.reverse ++
        e.opening.blocks (layoutWithin around e.before).length

/-- The names of the open blocks. -/
def openNames : List Enclosing → List String
  | [] => []
  | ⟨.block name, _, _⟩ :: around => name :: openNames around
  | _ :: around => openNames around

/-- A block as an entry of a program. -/
def blockEntry (block : String × Nat × List Node) : String × Range :=
  (block.1, Program.rangeOf block.2.1 block.2.2)

theorem names_blockEntry (blocks : List (String × Nat × List Node)) :
    (blocks.map blockEntry).map Prod.fst = blocks.map Prod.fst :=
  List.map_map

namespace Draft

/-- The blocks that are closed. -/
def closedBlocks (d : Draft) : List (String × Nat × List Node) :=
  blocksAround d.around ++ blocksAll (layoutAround d.around).length d.body.reverse

/-- As much of the program as is written when a draft has been made. -/
def assembly (d : Draft) : Assembly where
  instrs := (layoutWithin d.around d.body).toArray
  slotCount := max (depthAround d.around) (d.around.length + depths d.body.reverse)
  blocks := Dict.ofEntries (d.closedBlocks.map blockEntry)
  stack := stackAround d.around

/-- A draft knows the names of its blocks, closed or open, and each occurs once. -/
structure Sound (d : Draft) : Prop where
  names : d.names.Perm (d.closedBlocks.map Prod.fst ++ openNames d.around)
  distinct : d.names.Nodup

end Draft

/-! ## Operations so far -/

variable (around : List Enclosing) (body : List Node)

theorem length_stackAround : (stackAround around).length = around.length := by
  induction around with
  | nil => rfl
  | cons e around ih => rw [stackAround, List.length_cons, ih, List.length_cons]

theorem length_layoutWithin :
    (layoutWithin around body).length = (layoutAround around).length + sizes body.reverse := by
  rw [layoutWithin, List.length_append, length_layoutAll]

theorem layoutAround_cons (e : Enclosing) :
    layoutAround (e :: around) =
      layoutWithin around e.before ++
        e.opening.layout (layoutWithin around e.before).length around.length e.line :=
  rfl

/-- A node is laid out behind the operations so far. -/
theorem layoutWithin_cons (node : Node) :
    layoutWithin around (node :: body) =
      layoutWithin around body ++
        node.layout (layoutWithin around body).length around.length := by
  rw [length_layoutWithin, layoutWithin, List.reverse_cons, layoutAll_append, ← List.append_assoc,
    layoutAll, layoutAll, List.append_nil]
  rfl

/-- A construct that is opened is laid out behind the operations so far. -/
theorem layoutWithin_nil (opening : Opening) (line : Nat) :
    layoutWithin (⟨opening, line, body⟩ :: around) [] =
      layoutWithin around body ++
        opening.layout (layoutWithin around body).length around.length line := by
  rw [layoutWithin, layoutAround_cons, List.reverse_nil, layoutAll, List.append_nil]

theorem depths_single (node : Node) : depths [node] = node.depth := by
  rw [depths, depths, Nat.max_zero]

theorem blocksAll_single (start : Nat) (node : Node) :
    blocksAll start [node] = node.blocks start := by
  rw [blocksAll, blocksAll, List.append_nil]

/-- Only text ends in an operation that writes text. -/
theorem Node.getLast?_layout {node : Node} (noText : ∀ line s, node ≠ .text line s)
    (start depth : Nat) {line : Nat} {s : String} :
    (node.layout start depth).getLast? ≠ some ⟨.text s, line⟩ := by
  cases node <;> simp_all [layout, List.getLast?_cons]

theorem Opening.getLast?_layout (opening : Opening) (start depth opened : Nat) {line : Nat}
    {s : String} : (opening.layout start depth opened).getLast? ≠ some ⟨.text s, line⟩ := by
  cases opening <;> simp [layout, List.getLast?_cons]

/-- The operation that was written last writes text only if the latest node is text. -/
theorem getLast?_layoutWithin (noText : ∀ line s rest, body ≠ .text line s :: rest) {line : Nat}
    {s : String} : (layoutWithin around body).getLast? ≠ some ⟨.text s, line⟩ := by
  have of_last : ∀ {front last : List Instr}, last ≠ [] →
      last.getLast? ≠ some ⟨.text s, line⟩ → (front ++ last).getLast? ≠ some ⟨.text s, line⟩ := by
    intro front last nonempty other
    rw [List.getLast?_append, List.getLast?_eq_some_getLast nonempty]
    rwa [List.getLast?_eq_some_getLast nonempty] at other
  cases body with
  | nil =>
      cases around with
      | nil => nofun
      | cons e around =>
          obtain ⟨opening, opened, before⟩ := e
          rw [layoutWithin_nil]
          refine of_last ?_ (opening.getLast?_layout _ _ _)
          cases opening <;> exact List.cons_ne_nil _ _
  | cons node rest =>
      rw [layoutWithin_cons]
      refine of_last ?_ (Node.getLast?_layout (fun line s same => ?_) _ _)
      · intro none
        have size := node.length_layout (layoutWithin around rest).length around.length
        rw [none] at size
        cases node <;> simp [Node.size] at size
      · exact noText line s rest (same ▸ rfl)

/-- The operations of an open construct and its nodes, behind those in front of it. -/
theorem layoutWithin_open (e : Enclosing) :
    layoutWithin (e :: around) body =
      layoutWithin around e.before ++
        (e.opening.layout (layoutWithin around e.before).length around.length e.line ++
          layoutAll ((layoutWithin around e.before).length +
            (e.opening.layout (layoutWithin around e.before).length around.length e.line).length)
            (around.length + 1) body.reverse) := by
  rw [layoutWithin, layoutAround_cons, List.append_assoc, List.length_append, List.length_cons]

/-! ## Targets that are open -/

/-- The operations that an open construct's targets are to be filled in at stand where the stack
says, with these targets left open. -/
def Begun.Waits (ops : List Instr) (b : Begun) : Prop :=
  match b.pending with
  | .conditional elseAt =>
      (∃ condition slot, ops[b.beginAt]? = some ⟨.beginIf condition slot none 0, b.line⟩) ∧
        ∀ middle, elseAt = some middle → ∃ slot line, ops[middle]? = some ⟨.orElse slot 0, line⟩
  | .loop =>
      ∃ item collection slot, ops[b.beginAt]? = some ⟨.beginFor item collection slot 0, b.line⟩
  | .block name => ops[b.beginAt]? = some ⟨.beginBlock name 0, b.line⟩

/-- Operations that are added leave what waits in front of them. -/
theorem Begun.Waits.append {ops : List Instr} {b : Begun} (waits : b.Waits ops)
    (more : List Instr) : b.Waits (ops ++ more) := by
  have kept : ∀ {i : Nat} {instr : Instr}, ops[i]? = some instr →
      (ops ++ more)[i]? = some instr := by
    intro i instr found
    rwa [List.getElem?_append_left (List.getElem?_eq_some_iff.1 found).1]
  obtain ⟨pending, beginAt, line⟩ := b
  cases pending with
  | conditional elseAt =>
      obtain ⟨⟨condition, slot, found⟩, middle⟩ := waits
      refine ⟨⟨condition, slot, kept found⟩, fun position same => ?_⟩
      obtain ⟨slot, line, found⟩ := middle position same
      exact ⟨slot, line, kept found⟩
  | loop =>
      obtain ⟨item, collection, slot, found⟩ := waits
      exact ⟨item, collection, slot, kept found⟩
  | block name => exact kept waits

theorem Opening.waits (opening : Opening) (front : List Instr) (depth line : Nat) :
    Begun.Waits (front ++ opening.layout front.length depth line)
      ⟨opening.pending front.length, front.length, line⟩ := by
  cases opening with
  | ifThen condition => exact ⟨⟨condition, depth, by simp [layout]⟩, nofun⟩
  | ifElse condition yes elseLine =>
      refine ⟨⟨condition, depth, by simp [layout]⟩, fun middle same => ⟨depth, elseLine, ?_⟩⟩
      obtain rfl := Option.some.inj same
      have inside : ∀ n, front.length + 1 + n - front.length = n + 1 := by omega
      rw [List.getElem?_append_right (by omega), inside, layout, List.getElem?_cons_succ,
        List.getElem?_append_right (Nat.le_of_eq (length_layoutAll ..)), length_layoutAll,
        Nat.sub_self]
      rfl
  | loop item collection => exact ⟨item, collection, depth, by simp [layout]⟩
  | block name => exact by simp [Begun.Waits, pending, layout]

theorem waits_layoutWithin : ∀ b ∈ stackAround around, b.Waits (layoutWithin around body) := by
  induction around generalizing body with
  | nil => exact nofun
  | cons e around ih =>
      rw [layoutWithin, layoutAround_cons, stackAround, List.forall_mem_cons]
      refine ⟨(e.opening.waits _ _ _).append _, fun b mem => ?_⟩
      exact ((ih e.before b mem).append _).append _

end BraceTemplate
