/-
# BraceTemplate.Proofs.Program.WellFormed — the programs of source texts

`Program.WellFormed` says of a flat program, without the tree it was laid out from, that its
constructs are nested, that their operations know each other's positions, that slots are numbered by
nesting, that the blocks are listed, and that texts are joined.

* `Template.fits`: every operation of a template's program fits the operations around it;
* `Template.slotCount_eq`: the number of slots is the greatest number of open constructs;
* `wellFormed_of_compile`: a source text compiles to the program that is written for it in one pass;
  it is well formed, and its operations are the directives of the source in order.
-/
import BraceTemplate.Proofs.Program.Opened
import BraceTemplate.Proofs.Render.Around
import BraceTemplate.Proofs.Source.Transcript

namespace BraceTemplate

set_option autoImplicit false

/-- A program has an operation at a position. -/
def Program.Has (p : Program) (i : Nat) (op : Op) : Prop :=
  ∃ line, p.instrs[i]? = some ⟨op, line⟩

/-- The operation at position `i` belongs to the construct that begins at `b`: no other construct
has been opened behind `b` and is still open in front of `i`. -/
def Program.Owns (p : Program) (b i : Nat) : Prop :=
  p.opened i = b :: p.opened b

/-- An operation at position `i` and the operations of the same construct know each other. -/
def Op.Fits (p : Program) (i : Nat) : Op → Prop
  | .text _ | .output _ | .call _ _ => True
  | .beginIf _ slot elseAt endAt =>
      (p.Has endAt (.endIf slot) ∧ p.Owns i endAt) ∧
        ∀ middle, elseAt = some middle → p.Has middle (.orElse slot endAt) ∧ p.Owns i middle
  | .orElse slot endAt =>
      ∃ b condition, p.Has b (.beginIf condition slot (some i) endAt) ∧ p.Owns b i
  | .endIf slot => ∃ b condition elseAt, p.Has b (.beginIf condition slot elseAt i) ∧ p.Owns b i
  | .beginFor _ _ slot endAt => p.Has endAt (.endFor slot (i + 1)) ∧ p.Owns i endAt
  | .endFor slot bodyAt =>
      ∃ b item collection, p.Has b (.beginFor item collection slot i) ∧ p.Owns b i ∧
        bodyAt = b + 1
  | .beginBlock _ endAt => p.Has endAt .endBlock ∧ p.Owns i endAt
  | .endBlock => ∃ b name, p.Has b (.beginBlock name i) ∧ p.Owns b i

/-- The constructs around an operation. An operation behind the begin of a construct, which belongs
to the construct, is not inside it. -/
def Program.enclosing (p : Program) (i : Nat) : Op → List Nat
  | .orElse _ _ | .endIf _ | .endFor _ _ | .endBlock => (p.opened i).tail
  | .text _ | .output _ | .call _ _ | .beginIf _ _ _ _ | .beginFor _ _ _ _ | .beginBlock _ _ =>
      p.opened i

/-- The blocks that operations in a row begin, each with the positions inside it. -/
def beginBlocks (i : Nat) : List Instr → List (String × Range)
  | [] => []
  | ⟨.beginBlock name endAt, _⟩ :: rest => (name, ⟨i + 1, endAt⟩) :: beginBlocks (i + 1) rest
  | _ :: rest => beginBlocks (i + 1) rest

/-- A program whose constructs are nested and know their positions, slots and blocks, and whose
texts are joined. -/
structure Program.WellFormed (p : Program) : Prop where
  /-- Every operation fits the others of its construct. -/
  fits : ∀ i op, p.Has i op → op.Fits p i
  /-- No construct is open behind the last operation. -/
  closed : p.opened p.instrs.size = []
  /-- Slots are numbered by the constructs around the operation. -/
  slot : ∀ i op slot, p.Has i op → op.slot? = some slot → slot = (p.enclosing i op).length
  /-- There are as many slots as constructs are open anywhere. -/
  slotCount : (∀ i, (p.opened i).length ≤ p.slotCount) ∧ ∃ i, (p.opened i).length = p.slotCount
  /-- There is one entry for each operation that begins a block, and none else. -/
  blocks : p.blocks.Ascending ∧ p.blocks.Perm (beginBlocks 0 p.instrs.toList)
  /-- No text is empty or in front of another. -/
  text : ∀ i s, p.Has i (.text s) → s ≠ "" ∧ ∀ s', ¬ p.Has (i + 1) (.text s')
  /-- Lines never decrease. -/
  lines : p.instrs.toList.Pairwise fun a b => a.line ≤ b.line

/-! ## Operations know each other -/

theorem Program.Has.unique {p : Program} {i : Nat} {op op' : Op} (has : p.Has i op)
    (has' : p.Has i op') : op = op' := by
  obtain ⟨line, found⟩ := has
  obtain ⟨line', found'⟩ := has'
  exact congrArg Instr.op (Option.some.inj (found.symm.trans found'))

/-- What holds of an operation that belongs to a placed node. -/
structure Op.Settled (p : Program) (i : Nat) (op : Op) : Prop where
  has : p.Has i op
  fits : op.Fits p i
  slot : ∀ slot, op.slot? = some slot → slot = (p.enclosing i op).length
  room : (p.opened i).length ≤ p.slotCount

namespace Op.Settled

variable {p : Program} {start i : Nat} {around : List Nat} {node : Node} {rest : List Node}
  {op : Op}

/-- The first operation of a node. -/
theorem first (nested : Nested p start around (node :: rest)) (has : p.Has start op)
    (fits : op.Fits p start) (enclosing : p.enclosing start op = p.opened start)
    (slot : ∀ slot, op.slot? = some slot → slot = around.length) : Op.Settled p start op := by
  have room := nested.placed.head_room
  refine ⟨has, fits, fun s found => ?_, ?_⟩
  · rw [enclosing, nested.opened, slot s found]
  · rw [nested.opened]
    omega

/-- A later operation of a construct. -/
theorem later (nested : Nested p start around (node :: rest)) (construct : 0 < node.depth)
    (own : p.Owns start i) (has : p.Has i op) (fits : op.Fits p i)
    (enclosing : p.enclosing i op = (p.opened i).tail)
    (slot : ∀ slot, op.slot? = some slot → slot = around.length) : Op.Settled p i op := by
  have room := nested.placed.head_room
  rw [Program.Owns, nested.opened] at own
  refine ⟨has, fits, fun s found => ?_, ?_⟩
  · rw [enclosing, own, List.tail_cons, slot s found]
  · rw [own, List.length_cons]
    omega

end Op.Settled

open Op.Settled in
/-- A node's own operations know each other. -/
theorem Nested.settled {p : Program} {start i : Nat} {around : List Nat} {node : Node}
    {rest : List Node} (nested : Nested p start around (node :: rest)) (mem : i ∈ node.owns start) :
    ∃ op, Op.Settled p i op := by
  have owns : ∀ {j nodes}, Nested p j (start :: around) nodes → p.Owns start (j + sizes nodes) := by
    intro j nodes inside
    rw [Program.Owns, inside.opened_behind, nested.opened]
  have slot : ∀ slot, some around.length = some slot → slot = around.length := by
    rintro slot ⟨⟩
    rfl
  have noSlot : ∀ slot, none = some slot → slot = around.length := by
    rintro slot ⟨⟩
  cases node with
  | text | output | call =>
      obtain rfl := List.mem_singleton.1 mem
      exact ⟨_, first nested ⟨_, nested.placed.head.head⟩ trivial rfl noSlot⟩
  | ifThen line condition yes endLine =>
      obtain ⟨begin_, -, end_⟩ := nested.placed.ifThen
      have own := owns nested.ifThen
      have construct : 0 < (Node.ifThen line condition yes endLine).depth := Nat.succ_pos _
      simp only [Node.owns, List.mem_cons, List.not_mem_nil, or_false] at mem
      rcases mem with rfl | rfl
      · refine ⟨_, first nested ⟨_, begin_⟩ ⟨⟨⟨_, end_⟩, own⟩, ?_⟩ rfl slot⟩
        rintro _ ⟨⟩
      · exact ⟨_, later nested construct own ⟨_, end_⟩ ⟨start, condition, none, ⟨_, begin_⟩, own⟩
          rfl slot⟩
  | ifElse line condition yes elseLine no endLine =>
      obtain ⟨begin_, -, else_, -, end_⟩ := nested.placed.ifElse
      have own := owns nested.ifElse.1
      have own' := owns nested.ifElse.2
      have construct : 0 < (Node.ifElse line condition yes elseLine no endLine).depth :=
        Nat.succ_pos _
      simp only [Node.owns, List.mem_cons, List.not_mem_nil, or_false] at mem
      rcases mem with rfl | rfl | rfl
      · refine ⟨_, first nested ⟨_, begin_⟩ ⟨⟨⟨_, end_⟩, own'⟩, ?_⟩ rfl slot⟩
        rintro _ ⟨⟩
        exact ⟨⟨_, else_⟩, own⟩
      · exact ⟨_, later nested construct own ⟨_, else_⟩ ⟨start, condition, ⟨_, begin_⟩, own⟩
          rfl slot⟩
      · exact ⟨_, later nested construct own' ⟨_, end_⟩ ⟨start, condition, _, ⟨_, begin_⟩, own'⟩
          rfl slot⟩
  | loop line item collection body endLine =>
      obtain ⟨begin_, -, end_⟩ := nested.placed.loop
      have own := owns nested.loop
      have construct : 0 < (Node.loop line item collection body endLine).depth := Nat.succ_pos _
      simp only [Node.owns, List.mem_cons, List.not_mem_nil, or_false] at mem
      rcases mem with rfl | rfl
      · exact ⟨_, first nested ⟨_, begin_⟩ ⟨⟨_, end_⟩, own⟩ rfl slot⟩
      · exact ⟨_, later nested construct own ⟨_, end_⟩
          ⟨start, item, collection, ⟨_, begin_⟩, own, rfl⟩ rfl slot⟩
  | block line name body endLine =>
      obtain ⟨begin_, -, end_⟩ := nested.placed.block
      have own := owns nested.block
      have construct : 0 < (Node.block line name body endLine).depth := Nat.succ_pos _
      simp only [Node.owns, List.mem_cons, List.not_mem_nil, or_false] at mem
      rcases mem with rfl | rfl
      · exact ⟨_, first nested ⟨_, begin_⟩ ⟨⟨_, end_⟩, own⟩ rfl noSlot⟩
      · exact ⟨_, later nested construct own ⟨_, end_⟩ ⟨start, name, ⟨_, begin_⟩, own⟩ rfl noSlot⟩

theorem Template.settled (t : Template) {i : Nat} {op : Op} (has : t.program.Has i op) :
    Op.Settled t.program i op := by
  obtain ⟨line, found⟩ := has
  obtain ⟨start, around, node, rest, nested, mem⟩ :=
    t.owned (Array.getElem?_eq_some_iff.1 found).1
  obtain ⟨op', settled⟩ := nested.settled mem
  rwa [Program.Has.unique ⟨line, found⟩ settled.has]

/-- Behind the last operation of a template no construct is open. -/
theorem Template.opened_size (t : Template) : t.program.opened t.program.instrs.size = [] := by
  have behind := t.nested.opened_behind
  rwa [← t.opCount_eq_stop] at behind

theorem Template.opened_le (t : Template) (i : Nat) :
    (t.program.opened i).length ≤ t.program.slotCount := by
  by_cases inside : i < t.program.instrs.size
  · exact (t.settled ⟨_, Array.getElem?_eq_getElem inside⟩).room
  · rw [Program.opened_of_size_le (Nat.le_of_not_lt inside), t.opened_size]
    exact Nat.zero_le _

/-! ## The number of slots -/

mutual

theorem Node.exists_opened : ∀ (node : Node) {p : Program} {start : Nat} {around : List Nat}
    {rest : List Node}, Nested p start around (node :: rest) →
      ∃ i, (p.opened i).length = around.length + node.depth
  | .text _ _, _, start, _, _, nested | .output _ _, _, start, _, _, nested
  | .call _ _ _, _, start, _, _, nested => ⟨start, by rw [nested.opened, Node.depth, Nat.add_zero]⟩
  | .ifThen _ _ yes _, _, _, _, _, nested => by
      obtain ⟨i, deep⟩ := exists_openedAll yes nested.ifThen
      exact ⟨i, by rw [deep, Node.depth, List.length_cons, Nat.add_right_comm, Nat.add_assoc]⟩
  | .ifElse _ _ yes _ no _, _, _, _, _, nested => by
      obtain ⟨i, deep⟩ := exists_openedAll yes nested.ifElse.1
      obtain ⟨j, deep'⟩ := exists_openedAll no nested.ifElse.2
      rw [List.length_cons] at deep deep'
      rw [Node.depth]
      rcases Nat.le_total (depths yes) (depths no) with le | le
      · exact ⟨j, by rw [deep', Nat.max_eq_right le]; omega⟩
      · exact ⟨i, by rw [deep, Nat.max_eq_left le]; omega⟩
  | .loop _ _ _ body _, _, _, _, _, nested => by
      obtain ⟨i, deep⟩ := exists_openedAll body nested.loop
      exact ⟨i, by rw [deep, Node.depth, List.length_cons, Nat.add_right_comm, Nat.add_assoc]⟩
  | .block _ _ body _, _, _, _, _, nested => by
      obtain ⟨i, deep⟩ := exists_openedAll body nested.block
      exact ⟨i, by rw [deep, Node.depth, List.length_cons, Nat.add_right_comm, Nat.add_assoc]⟩

/-- Somewhere in placed nodes as many constructs are open as are nested in them. -/
theorem exists_openedAll : ∀ (nodes : List Node) {p : Program} {start : Nat} {around : List Nat},
    Nested p start around nodes → ∃ i, (p.opened i).length = around.length + depths nodes
  | [], _, start, _, nested => ⟨start, by rw [nested.opened, depths, Nat.add_zero]⟩
  | node :: rest, _, _, _, nested => by
      obtain ⟨i, deep⟩ := node.exists_opened nested
      obtain ⟨j, deep'⟩ := exists_openedAll rest nested.behind
      rw [depths]
      rcases Nat.le_total node.depth (depths rest) with le | le
      · exact ⟨j, by rw [deep', Nat.max_eq_right le]⟩
      · exact ⟨i, by rw [deep, Nat.max_eq_left le]⟩

end

theorem Template.exists_opened (t : Template) :
    ∃ i, (t.program.opened i).length = t.program.slotCount := by
  obtain ⟨i, deep⟩ := exists_openedAll t.nodes t.nested
  exact ⟨i, by rw [deep, t.program_eq, Program.ofNodes]; exact Nat.zero_add _⟩

/-! ## Operations and directives -/

/-- The directive that an operation comes from, without the label at the end of a block. -/
def Op.directive : Op → Directive
  | .text s => .text s
  | .output expr => .output expr
  | .call name arguments => .call name arguments
  | .beginIf condition _ _ _ => .openIf condition
  | .orElse _ _ => .orElse
  | .endIf _ => .closeIf
  | .beginFor item collection _ _ => .openFor item collection
  | .endFor _ _ => .closeFor
  | .beginBlock name _ => .openBlock name
  | .endBlock => .closeBlock ""

/-- The directives that operations come from, with their lines. -/
def directivesOf (ops : List Instr) : List (Nat × Directive) :=
  ops.map fun instr => (instr.line, instr.op.directive)

theorem directivesOf_append (first second : List Instr) :
    directivesOf (first ++ second) = directivesOf first ++ directivesOf second :=
  List.map_append

theorem directivesOf_cons (op : Op) (line : Nat) (rest : List Instr) :
    directivesOf (⟨op, line⟩ :: rest) = (line, op.directive) :: directivesOf rest :=
  rfl

mutual

theorem Node.directivesOf_layout : ∀ (node : Node) (start depth : Nat),
    directivesOf (node.layout start depth) = node.directives
  | .text _ _, _, _ | .output _ _, _, _ | .call _ _ _, _, _ => rfl
  | .ifThen _ _ yes _, start, depth => by
      simp only [Node.layout, Node.directives, directivesOf_cons, directivesOf_append,
        directivesOf_layoutAll yes]
      rfl
  | .ifElse _ _ yes _ no _, start, depth => by
      simp only [Node.layout, Node.directives, directivesOf_cons, directivesOf_append,
        directivesOf_layoutAll yes, directivesOf_layoutAll no]
      rfl
  | .loop _ _ _ body _, start, depth => by
      simp only [Node.layout, Node.directives, directivesOf_cons, directivesOf_append,
        directivesOf_layoutAll body]
      rfl
  | .block _ _ body _, start, depth => by
      simp only [Node.layout, Node.directives, directivesOf_cons, directivesOf_append,
        directivesOf_layoutAll body]
      rfl

/-- Laid out nodes come from the directives that write them. -/
theorem directivesOf_layoutAll : ∀ (nodes : List Node) (start depth : Nat),
    directivesOf (layoutAll start depth nodes) = directivesAll nodes
  | [], _, _ => rfl
  | node :: rest, start, depth => by
      rw [layoutAll, directivesOf_append, node.directivesOf_layout, directivesOf_layoutAll rest,
        directivesAll]

end

theorem Template.directivesOf_program (t : Template) :
    directivesOf t.program.instrs.toList = directivesAll t.nodes := by
  rw [t.program_eq, Program.ofNodes, directivesOf_layoutAll]

/-! ## Blocks -/

theorem beginBlocks_append (i : Nat) (first second : List Instr) :
    beginBlocks i (first ++ second) =
      beginBlocks i first ++ beginBlocks (i + first.length) second := by
  induction first generalizing i with
  | nil => rfl
  | cons instr first ih =>
      have next : i + 1 + first.length = i + (instr :: first).length := by
        rw [List.length_cons]
        omega
      obtain ⟨op, line⟩ := instr
      cases op <;> simp only [List.cons_append, beginBlocks, ih, next]

/-- A block's name and the positions inside it. -/
def blockRange (block : String × Nat × List Node) : String × Range :=
  (block.1, Program.rangeOf block.2.1 block.2.2)

mutual

theorem Node.beginBlocks_layout : ∀ (node : Node) (start depth : Nat),
    beginBlocks start (node.layout start depth) = (node.blocks start).map blockRange
  | .text _ _, _, _ | .output _ _, _, _ | .call _ _ _, _, _ => rfl
  | .ifThen _ _ yes _, start, depth => by
      simp [Node.layout, Node.blocks, beginBlocks, beginBlocks_append, beginBlocks_layoutAll yes]
  | .ifElse _ _ yes _ no _, start, depth => by
      simp [Node.layout, Node.blocks, beginBlocks, beginBlocks_append, beginBlocks_layoutAll yes,
        beginBlocks_layoutAll no, length_layoutAll]
  | .loop _ _ _ body _, start, depth => by
      simp [Node.layout, Node.blocks, beginBlocks, beginBlocks_append, beginBlocks_layoutAll body]
  | .block _ _ body _, start, depth => by
      simp [Node.layout, Node.blocks, beginBlocks, beginBlocks_append, beginBlocks_layoutAll body,
        blockRange, Program.rangeOf]

/-- The blocks of nodes are those that their operations begin. -/
theorem beginBlocks_layoutAll : ∀ (nodes : List Node) (start depth : Nat),
    beginBlocks start (layoutAll start depth nodes) = (blocksAll start nodes).map blockRange
  | [], _, _ => rfl
  | node :: rest, start, depth => by
      rw [layoutAll, beginBlocks_append, node.beginBlocks_layout, node.length_layout,
        beginBlocks_layoutAll rest, blocksAll, List.map_append]

end

/-- The names of blocks that operations begin are those that their directives open. -/
theorem keys_beginBlocks (i : Nat) (ops : List Instr) :
    (beginBlocks i ops).map Prod.fst = openedBlocks (directivesOf ops) := by
  induction ops generalizing i with
  | nil => rfl
  | cons instr ops ih =>
      obtain ⟨op, line⟩ := instr
      cases op <;> simp only [beginBlocks, directivesOf_cons, Op.directive, openedBlocks, ih,
        List.map_cons]

/-- The names of the blocks of nodes are those that their directives open. -/
theorem names_blocksAll (nodes : List Node) (start : Nat) :
    (blocksAll start nodes).map Prod.fst = openedBlocks (directivesAll nodes) := by
  have keys := keys_beginBlocks start (layoutAll start 0 nodes)
  rw [directivesOf_layoutAll, beginBlocks_layoutAll, List.map_map] at keys
  exact keys

theorem Template.beginBlocks_program (t : Template) :
    beginBlocks 0 t.program.instrs.toList = (blocksAll 0 t.nodes).map blockRange := by
  rw [t.program_eq, Program.ofNodes, beginBlocks_layoutAll]

/-- Where blocks have distinct names, all of them are listed. -/
theorem Template.blocks_perm (t : Template)
    (distinct : (openedBlocks (directivesAll t.nodes)).Nodup) :
    t.program.blocks.Perm (beginBlocks 0 t.program.instrs.toList) := by
  have names : ((blocksAll 0 t.nodes).map blockRange).map Prod.fst =
      (blocksAll 0 t.nodes).map Prod.fst := List.map_map
  rw [← names_blocksAll t.nodes 0, ← names] at distinct
  rw [t.beginBlocks_program, t.program_eq]
  exact Dict.perm_ofEntries distinct

/-! ## Compiled source texts -/

/-- In a tidy program no text is empty or in front of another. -/
theorem Program.text_of_tidy {p : Program} (tidy : Tidy (directivesOf p.instrs.toList)) {i : Nat}
    {s : String} (has : p.Has i (.text s)) : s ≠ "" ∧ ∀ s', ¬ p.Has (i + 1) (.text s') := by
  obtain ⟨line, found⟩ := has
  rw [← Array.getElem?_toList] at found
  constructor
  · rintro rfl
    have mem := List.mem_map_of_mem (f := fun instr : Instr => (instr.line, instr.op.directive))
      (List.mem_of_getElem? found)
    exact tidy.nonempty _ mem rfl
  · rintro s' ⟨line', found'⟩
    rw [← Array.getElem?_toList] at found'
    obtain ⟨bound, same⟩ := List.getElem?_eq_some_iff.1 found
    obtain ⟨bound', same'⟩ := List.getElem?_eq_some_iff.1 found'
    have apart := tidy.apart
    rw [directivesOf, List.isChain_map, List.isChain_iff_getElem] at apart
    refine apart i bound' ⟨⟨s, ?_⟩, ⟨s', ?_⟩⟩
    · simp only [same, Op.directive]
    · simp only [same', Op.directive]

/-- A template with a tidy tree has a well-formed program. -/
theorem Template.wellFormed (t : Template) (tidy : Tidy (directivesAll t.nodes))
    (distinct : (openedBlocks (directivesAll t.nodes)).Nodup) : t.program.WellFormed := by
  rw [← t.directivesOf_program] at tidy
  refine ⟨fun i op has => (t.settled has).fits, t.opened_size,
    fun i op slot has => (t.settled has).slot slot, ⟨t.opened_le, t.exists_opened⟩,
    ⟨?_, t.blocks_perm distinct⟩, fun i s has => Program.text_of_tidy tidy has, ?_⟩
  · rw [t.program_eq]
    exact Dict.ascending_ofEntries _
  · have ascending := tidy.ascending
    rw [directivesOf, List.pairwise_map] at ascending
    exact ascending

/-- The operations of a compiled template are the directives of its source. -/
theorem exists_directives_of_compile {name source : String} {t : Template}
    (compiled : Template.compile name source = .ok t) :
    ∃ pieces ds, Pieces 1 source.toList pieces ∧ Reads ClosedRow pieces ds ∧
      directivesOf t.program.instrs.toList = joined ds := by
  obtain ⟨nodes, tree, rfl⟩ := Template.compile_eq_ok_iff.1 compiled
  obtain ⟨pieces, ds, whole, reads, -, same⟩ := directivesAll_of_ofSource tree
  refine ⟨pieces, ds, whole, reads, ?_⟩
  rw [Template.directivesOf_program]
  exact same

/-- **The program of a source text is well formed.** It is the one that is written in one pass, in
which targets are left open and filled in later, and its operations are the directives of the source
in order, with texts next to each other joined. -/
theorem wellFormed_of_compile {name source : String} {t : Template}
    (compiled : Template.compile name source = .ok t) :
    Program.ofSource source.toList = .ok t.program ∧ t.program.WellFormed ∧
      ∃ pieces ds, Pieces 1 source.toList pieces ∧ Reads ClosedRow pieces ds ∧
        directivesOf t.program.instrs.toList = joined ds := by
  have written := Template.ofSource_of_compile compiled
  have directives := exists_directives_of_compile compiled
  obtain ⟨nodes, tree, rfl⟩ := Template.compile_eq_ok_iff.1 compiled
  obtain ⟨tidy, distinct⟩ := tidy_of_ofSource tree
  exact ⟨written, Template.wellFormed _ tidy distinct, directives⟩

set_option maxRecDepth 2000 in
/-- A loop and a block in the branches of a conditional in a block, and texts that are joined. -/
theorem wellFormed_of_compile_nested :
    let source := "\x7b%block a%\x7d\n\x7b%if x%\x7d\x7b%for y ys%\x7d+" ++
      "\x7b\x7b\x7d\x7b%endfor%\x7d" ++
      "\x7b%else%\x7d\x7b%block b%\x7d\x7b%endblock b%\x7d\x7b%endif%\x7d\x7b%endblock%\x7d"
    let x : Expr := ⟨"x", [], []⟩
    let ys : Expr := ⟨"ys", [], []⟩
    let p : Program :=
      { instrs := #[⟨.beginBlock "a" 10, 1⟩, ⟨.text "\n", 1⟩, ⟨.beginIf x 1 (some 6) 9, 2⟩,
          ⟨.beginFor "y" ys 2 5, 2⟩, ⟨.text "+\x7b", 2⟩, ⟨.endFor 2 4, 2⟩, ⟨.orElse 1 9, 2⟩,
          ⟨.beginBlock "b" 8, 2⟩, ⟨.endBlock, 2⟩, ⟨.endIf 1, 2⟩, ⟨.endBlock, 2⟩]
        slotCount := 3
        blocks := [("a", ⟨1, 10⟩), ("b", ⟨8, 8⟩)] }
    (∃ t, Template.compile "page" source = .ok t ∧ t.program = p) ∧
      Program.ofSource source.toList = .ok p ∧ p.WellFormed := by
  intro source x ys p
  let nodes : List Node :=
    [.block 1 "a" [.text 1 "\n", .ifElse 2 x [.loop 2 "y" ys [.text 2 "+\x7b"] 2] 2
      [.block 2 "b" [] 2] 2] 2]
  have tree : Node.ofSource source.toList = .ok nodes := by cbv
  have compiled : Template.compile "page" source = .ok (.ofNodes "page" nodes) :=
    Template.compile_eq_ok_iff.2 ⟨nodes, tree, rfl⟩
  have program : (Template.ofNodes "page" nodes).program = p := by cbv
  refine ⟨⟨_, compiled, program⟩, ?_⟩
  rw [← program]
  obtain ⟨written, wellFormed, -⟩ := wellFormed_of_compile compiled
  exact ⟨written, wellFormed⟩

end BraceTemplate
