/-
# BraceTemplate.Program.Drafted — the program and the tree of a source

A program that is written in one pass and a draft of the tree take a directive in step
(`Draft.assembly_add`): what is written stays the program of the draft. So

* `Assembly.waits_of_addAll`: what the stack of a program being written points to are the operations
  that wait for their targets, so none is ever filled in elsewhere;
* `Program.ofSource_eq`: the program that is written for a source is the one that its tree is laid
  out as, and both refuse the same sources for the same cause.
-/
import BraceTemplate.Program.Unfinished

namespace BraceTemplate

set_option autoImplicit false

/-! ## Operations that are added -/

namespace Draft

variable (d : Draft) (line : Nat)

/-- A node without constructs is one more operation. -/
theorem assembly_push {node : Node} {op : Op} (single : ∀ start depth,
    node.layout start depth = [⟨op, line⟩]) (flat : node.depth = 0)
    (none : ∀ start, node.blocks start = []) :
    (d.push node).assembly = d.assembly.emit line op := by
  simp only [assembly, push, closedBlocks, Assembly.emit, layoutWithin_cons, single,
    List.reverse_cons, depths_append, depths_single, flat, Nat.max_zero, blocksAll_append,
    blocksAll_single, none, List.append_nil, List.push_toArray]

/-- Text is joined in the program where it is joined in the tree. -/
theorem assembly_pushText {s : String} (filled : s ≠ "") :
    (d.pushText line s).assembly = d.assembly.emitText line s := by
  have nonempty : s.isEmpty = false := by
    rwa [Bool.eq_false_iff, ne_eq, String.isEmpty_iff]
  rw [Assembly.emitText, nonempty, if_neg Bool.false_ne_true, pushText]
  split
  · rename_i first before rest body
    have last : d.assembly.instrs.back? = some ⟨.text before, first⟩ := by
      simp only [assembly, body, layoutWithin_cons, Node.layout, List.back?_toArray,
        List.getLast?_concat]
    simp only [last]
    simp only [assembly, closedBlocks, body, layoutWithin_cons, Node.layout, List.pop_toArray,
      List.dropLast_concat, List.push_toArray, List.reverse_cons, depths_append, depths_single,
      Node.depth, blocksAll_append, blocksAll_single, Node.blocks]
  · rename_i noText
    split
    · rename_i before first last
      rw [assembly, List.back?_toArray] at last
      exact absurd last (getLast?_layoutWithin _ _ noText)
    · exact d.assembly_push line (fun _ _ => rfl) rfl fun _ => rfl

/-- A construct that is opened is one more operation and one more entry of the stack. -/
theorem assembly_begin {opening : Opening} {op : Op} {pending : Pending}
    (single : ∀ start, opening.layout start d.around.length line = [⟨op, line⟩])
    (waits : ∀ start, opening.pending start = pending) (flat : opening.depth = 0)
    (none : ∀ start, opening.blocks start = []) :
    (d.begin line opening).assembly = (d.assembly.push line pending).emit line op := by
  simp only [assembly, begin, closedBlocks, Assembly.emit, Assembly.push, layoutWithin_nil, single,
    stackAround, waits, depthAround, flat, blocksAround, none, length_stackAround, List.length_cons,
    List.reverse_nil, depths, blocksAll, List.append_nil, Nat.add_zero, List.size_toArray,
    List.push_toArray]
  congr 1
  omega

end Draft

/-! ## Constructs that are closed -/

theorem modify_append_cons {front : List Instr} {position : Nat} (stands : front.length = position)
    (back : List Instr) (i : Instr) (f : Instr → Instr) :
    (front ++ i :: back).modify position f = front ++ f i :: back := by
  subst stands
  induction front with
  | nil => rfl
  | cons first front ih => exact congrArg (first :: ·) ih

namespace Opening

variable (opening : Opening) (line endLine : Nat) (nodes : List Node)

theorem depth_close :
    (opening.close line nodes endLine).depth = max opening.depth (depths nodes) + 1 := by
  cases opening <;> simp [close, Node.depth, depth]

/-- The blocks inside a construct are those of its finished branches and of its last one. -/
theorem blocks_close (noBlock : ∀ name, opening ≠ .block name) (start depth : Nat) :
    (opening.close line nodes endLine).blocks start =
      opening.blocks start ++
        blocksAll (start + (opening.layout start depth line).length) nodes := by
  cases opening with
  | ifThen | loop => rfl
  | ifElse condition yes elseLine =>
      simp only [close, Node.blocks, blocks, layout, List.length_cons, List.length_append,
        length_layoutAll, List.length_nil]
      congr 2
      omega
  | block name => exact absurd rfl (noBlock name)

end Opening

namespace Draft

variable {around : List Enclosing} {body before : List Node} {opening : Opening}
  {names : List String}
  {opened line : Nat}

/-- A construct that is closed leaves as many slots. -/
theorem slotCount_close :
    (assembly ⟨opening.close opened body.reverse line :: before, around, names⟩).slotCount =
      (assembly ⟨body, ⟨opening, opened, before⟩ :: around, names⟩).slotCount := by
  simp only [assembly, List.reverse_cons, depths_append, depths_single, opening.depth_close,
    depthAround, List.length_cons]
  omega

/-- A construct that is closed leaves the closed blocks, unless it is a block itself. -/
theorem closedBlocks_close (noBlock : ∀ name, opening ≠ .block name) :
    closedBlocks ⟨opening.close opened body.reverse line :: before, around, names⟩ =
      closedBlocks ⟨body, ⟨opening, opened, before⟩ :: around, names⟩ := by
  simp only [closedBlocks, List.reverse_cons, blocksAll_append, blocksAll_single,
    opening.blocks_close opened line _ noBlock _ around.length, blocksAround, layoutAround_cons,
    List.length_append, length_layoutWithin, List.append_assoc]

/-- A block that is closed comes behind the blocks in front of it and before those inside it. -/
theorem closedBlocks_closeBlock (around : List Enclosing) (body before : List Node)
    (names : List String) (opened line : Nat) (name : String) :
    (closedBlocks ⟨.block opened name body.reverse line :: before, around, names⟩).Perm
      (closedBlocks ⟨body, ⟨.block name, opened, before⟩ :: around, names⟩ ++
        [(name, (layoutWithin around before).length + 1, body.reverse)]) := by
  simp only [closedBlocks, List.reverse_cons, blocksAll_append, blocksAll_single, Node.blocks,
    blocksAround, Opening.blocks, layoutAround_cons, Opening.layout, List.length_append,
    List.length_singleton, length_layoutWithin, List.append_nil, List.append_assoc]
  exact (List.perm_append_singleton _ _).symm.append_left _ |>.append_left _

theorem assembly_orElse {condition : Expr} :
    (assembly ⟨body, ⟨.ifThen condition, opened, before⟩ :: around, names⟩).orElse line =
      .ok (assembly ⟨[], ⟨.ifElse condition body.reverse line, opened, before⟩ :: around,
        names⟩) := by
  have written : layoutWithin (⟨.ifElse condition body.reverse line, opened, before⟩ :: around) [] =
      layoutWithin (⟨.ifThen condition, opened, before⟩ :: around) body ++
        [⟨.orElse around.length 0, line⟩] := by
    simp [layoutWithin_open, Opening.layout, layoutAll]
  have middle : (layoutWithin (⟨.ifThen condition, opened, before⟩ :: around) body).length =
      (layoutWithin around before).length + 1 + sizes body.reverse := by
    simp [layoutWithin_open, Opening.layout, length_layoutAll]
    omega
  refine congrArg Except.ok (Assembly.ext ?_ ?_ ?_ ?_)
  · simp only [Assembly.emit, assembly, List.push_toArray, written, length_stackAround]
  · simp [Assembly.emit, assembly, depthAround, Opening.depth, depths]
    omega
  · simp [Assembly.emit, assembly, closedBlocks, blocksAround, Opening.blocks, blocksAll,
      layoutAround_cons, Opening.layout, List.append_assoc]
  · simp only [Assembly.emit, assembly, stackAround, Opening.pending, List.size_toArray, middle]

/-- Closing an `if` without `else` gives its begin operation the end. -/
theorem assembly_closeIf_ifThen {condition : Expr} :
    (assembly ⟨body, ⟨.ifThen condition, opened, before⟩ :: around, names⟩).closeIf line =
      .ok (assembly ⟨.ifThen opened condition body.reverse line :: before, around, names⟩) := by
  let d : Draft := ⟨body, ⟨.ifThen condition, opened, before⟩ :: around, names⟩
  let popped : Assembly := { d.assembly with stack := stackAround around }
  have closed : d.assembly.closeIf line = .ok ((popped.emit line
      (.endIf (stackAround around).length)).patch (layoutWithin around before).length
        (.fillIf none d.assembly.instrs.size)) := rfl
  rw [closed]
  refine congrArg Except.ok (Assembly.ext ?_ slotCount_close.symm ?_ rfl)
  · simp [popped, d, Assembly.emit, Assembly.patch, assembly, layoutWithin_open, layoutWithin_cons,
      Opening.layout, modify_append_cons, Op.fillIf, Node.layout, length_stackAround,
      length_layoutAll]
    omega
  · exact congrArg (Dict.ofEntries <| List.map blockEntry ·) (closedBlocks_close (by simp)).symm

/-- Closing an `if` with an `else` gives both of them the end, and the `if` its `else`. -/
theorem assembly_closeIf_ifElse {condition : Expr} {yes : List Node} {elseLine : Nat} :
    (assembly ⟨body, ⟨.ifElse condition yes elseLine, opened, before⟩ :: around, names⟩).closeIf
        line =
      .ok (assembly
        ⟨.ifElse opened condition yes elseLine body.reverse line :: before, around, names⟩) := by
  let d : Draft := ⟨body, ⟨.ifElse condition yes elseLine, opened, before⟩ :: around, names⟩
  let popped : Assembly := { d.assembly with stack := stackAround around }
  let front := layoutWithin around before
  let middle := front.length + 1 + sizes yes
  let endAt := middle + 1 + sizes body.reverse
  have size : d.assembly.instrs.size = endAt := by
    simp [d, assembly, layoutWithin_open, Opening.layout, length_layoutAll, endAt, middle, front]
    omega
  have closed : d.assembly.closeIf line = .ok (((popped.emit line
      (.endIf (stackAround around).length)).patch front.length
        (.fillIf (some middle) d.assembly.instrs.size)).patch
          middle (.fillElse d.assembly.instrs.size)) := rfl
  rw [closed, size]
  refine congrArg Except.ok (Assembly.ext ?_ slotCount_close.symm ?_ rfl)
  · let first := layoutAll (front.length + 1) (around.length + 1) yes
    let second := layoutAll (middle + 1) (around.length + 1) body.reverse ++
      [⟨.endIf around.length, line⟩]
    -- The `else` stands behind the begin operation, whose targets are known by then.
    let outer := front ++ ⟨.beginIf condition around.length (some middle) endAt, opened⟩ :: first
    have at_middle : outer.length = middle := by
      simp [outer, first, middle, length_layoutAll]
      omega
    have written : layoutWithin d.around d.body ++ [⟨.endIf around.length, line⟩] =
        front ++ ⟨.beginIf condition around.length none 0, opened⟩ ::
          (first ++ ⟨.orElse around.length 0, elseLine⟩ :: second) := by
      simp [d, layoutWithin_open, Opening.layout, first, second, front, middle, length_layoutAll]
      congr 1
      omega
    have filled : outer ++ ⟨.orElse around.length endAt, elseLine⟩ :: second =
        layoutWithin around
          (.ifElse opened condition yes elseLine body.reverse line :: before) := by
      simp [layoutWithin_cons, Node.layout, outer, first, second, front, middle, endAt]
    simp only [popped, Assembly.emit, Assembly.patch, assembly, List.push_toArray,
      List.modify_toArray, length_stackAround, written, modify_append_cons, Op.fillIf]
    rw [← List.cons_append, ← List.append_assoc, modify_append_cons at_middle, ← filled]
    rfl
  · exact congrArg (Dict.ofEntries <| List.map blockEntry ·) (closedBlocks_close (by simp)).symm

theorem assembly_closeFor {item : String} {collection : Expr} :
    (assembly ⟨body, ⟨.loop item collection, opened, before⟩ :: around, names⟩).closeFor line =
      .ok (assembly ⟨.loop opened item collection body.reverse line :: before, around, names⟩) := by
  let d : Draft := ⟨body, ⟨.loop item collection, opened, before⟩ :: around, names⟩
  let popped : Assembly := { d.assembly with stack := stackAround around }
  have closed : d.assembly.closeFor line = .ok ((popped.emit line
      (.endFor (stackAround around).length ((layoutWithin around before).length + 1))).patch
        (layoutWithin around before).length (.fillFor d.assembly.instrs.size)) := rfl
  rw [closed]
  refine congrArg Except.ok (Assembly.ext ?_ slotCount_close.symm ?_ rfl)
  · simp [popped, d, Assembly.emit, Assembly.patch, assembly, layoutWithin_open, layoutWithin_cons,
      Opening.layout, modify_append_cons, Op.fillFor, Node.layout, length_stackAround,
      length_layoutAll]
    omega
  · exact congrArg (Dict.ofEntries <| List.map blockEntry ·) (closedBlocks_close (by simp)).symm

theorem assembly_closeBlock {name label : String} (named : label = "" ∨ label = name)
    (distinct : ((closedBlocks
      ⟨.block opened name body.reverse line :: before, around, names⟩).map Prod.fst).Nodup) :
    (assembly ⟨body, ⟨.block name, opened, before⟩ :: around, names⟩).closeBlock line label =
      .ok (assembly ⟨.block opened name body.reverse line :: before, around, names⟩) := by
  let d : Draft := ⟨body, ⟨.block name, opened, before⟩ :: around, names⟩
  let popped : Assembly := { d.assembly with stack := stackAround around }
  let start := (layoutWithin around before).length
  let endAt := start + 1 + sizes body.reverse
  have size : d.assembly.instrs.size = endAt := by
    simp [d, assembly, layoutWithin_open, Opening.layout, length_layoutAll, endAt, start]
    omega
  have closed : d.assembly.closeBlock line label = .ok { (popped.emit line .endBlock).patch start
      (.fillBlock d.assembly.instrs.size) with
        blocks := d.assembly.blocks.insert name ⟨start + 1, d.assembly.instrs.size⟩ } := by
    have checked : d.assembly.checkLabel label = .ok () := if_pos named
    rw [Assembly.closeBlock, checked]
    rfl
  rw [closed, size]
  refine congrArg Except.ok (Assembly.ext ?_ slotCount_close.symm ?_ rfl)
  · simp [popped, d, Assembly.emit, Assembly.patch, assembly, layoutWithin_open, layoutWithin_cons,
      Opening.layout, modify_append_cons, Op.fillBlock, Node.layout, start, endAt]
  · have perm := (closedBlocks_closeBlock around body before names opened line name).map blockEntry
    rw [List.map_append] at perm
    have same := Dict.ofEntries_of_perm perm (by rwa [names_blockEntry])
    simp only [assembly]
    rw [same]
    exact (Dict.ofEntries_concat _ name _).symm

end Draft

/-! ## Directives -/

theorem isOpen_stackAround {a : Assembly} {around : List Enclosing}
    (stack : a.stack = stackAround around) (name : String) :
    a.isOpen name = true ↔ name ∈ openNames around := by
  rw [Assembly.isOpen, stack]
  clear stack
  induction around with
  | nil => simp [stackAround, openNames]
  | cons e around ih =>
      obtain ⟨opening, line, before⟩ := e
      rw [stackAround, List.any_cons, Bool.or_eq_true, ih]
      cases opening <;> simp [Opening.pending, openNames, @eq_comm _ name]

namespace Draft

variable {d e : Draft} {line : Nat}

theorem Sound.empty : Sound empty :=
  ⟨.nil, .nil⟩

theorem Sound.distinct_closed (sound : d.Sound) : (d.closedBlocks.map Prod.fst).Nodup :=
  (List.nodup_append.1 (sound.names.nodup_iff.1 sound.distinct)).1

/-- A name is taken in the draft if the program being written knows a block of that name. -/
theorem Sound.mem_names_iff (sound : d.Sound) (name : String) :
    (d.assembly.blocks.contains name || d.assembly.isOpen name) = true ↔ name ∈ d.names := by
  have closed : (Dict.ofEntries (d.closedBlocks.map blockEntry)).keys.Perm
      (d.closedBlocks.map Prod.fst) := by
    rw [← names_blockEntry]
    refine (Dict.perm_ofEntries ?_).map Prod.fst
    rw [names_blockEntry]
    exact sound.distinct_closed
  rw [Bool.or_eq_true, isOpen_stackAround rfl, Dict.contains, ← Dict.mem_keys_iff,
    sound.names.mem_iff, List.mem_append]
  exact or_congr_left closed.mem_iff

/-- Blocks that are closed or open stay so, whatever else changes. -/
theorem Sound.of_same (sound : d.Sound) (names : e.names = d.names)
    (closed : e.closedBlocks = d.closedBlocks) (open_ : openNames e.around = openNames d.around) :
    e.Sound := by
  refine ⟨?_, names ▸ sound.distinct⟩
  rw [names, closed, open_]
  exact sound.names

theorem closedBlocks_push {node : Node} (none : ∀ start, node.blocks start = []) :
    (d.push node).closedBlocks = d.closedBlocks := by
  simp only [closedBlocks, push, List.reverse_cons, blocksAll_append, blocksAll_single, none,
    List.append_nil]

theorem closedBlocks_pushText (line : Nat) (s : String) :
    (d.pushText line s).closedBlocks = d.closedBlocks := by
  rw [pushText]
  split
  · rename_i first before rest body
    simp only [closedBlocks, body, List.reverse_cons, blocksAll_append, blocksAll_single,
      Node.blocks]
  · exact closedBlocks_push fun _ => rfl

theorem closedBlocks_begin {opening : Opening} (none : ∀ start, opening.blocks start = []) :
    (d.begin line opening).closedBlocks = d.closedBlocks := by
  simp only [closedBlocks, begin, blocksAround, none, List.append_nil, List.reverse_nil, blocksAll]

/-- A draft stays sound: a block is new when it is opened, and known still when it is closed. -/
theorem Sound.add (sound : d.Sound) {directive : Directive} (added : d.add line directive = .ok e) :
    e.Sound := by
  have closing : ∀ construct, construct ≠ .block → d.close line construct = .ok e → e.Sound := by
    intro construct noBlock closed
    obtain ⟨opening, opened, before, around, open_, rfl, rfl⟩ := eq_of_close closed
    obtain ⟨body, _, names⟩ := d
    obtain rfl := open_
    have noName : ∀ name, opening ≠ .block name := fun name same => noBlock (same ▸ rfl)
    refine sound.of_same rfl (closedBlocks_close noName) ?_
    cases opening with
    | block name => exact absurd rfl (noName name)
    | ifThen | ifElse | loop => rfl
  cases directive with
  | text s =>
      obtain rfl := Except.ok.inj added
      refine sound.of_same ?_ (closedBlocks_pushText line s) ?_ <;> rw [pushText] <;> split <;> rfl
  | output | call =>
      obtain rfl := Except.ok.inj added
      exact sound.of_same rfl (closedBlocks_push fun _ => rfl) rfl
  | openIf | openFor =>
      obtain rfl := Except.ok.inj added
      exact sound.of_same rfl (closedBlocks_begin fun _ => rfl) rfl
  | openBlock name =>
      obtain ⟨new, rfl⟩ := eq_of_openBlock added
      refine ⟨?_, List.nodup_cons.2 ⟨new, sound.distinct⟩⟩
      have same : closedBlocks { d.begin line (.block name) with names := name :: d.names } =
          d.closedBlocks := closedBlocks_begin fun _ => rfl
      rw [same]
      exact (sound.names.cons name).trans List.perm_middle.symm
  | orElse =>
      obtain ⟨condition, opened, before, around, open_, rfl⟩ := eq_of_orElse added
      obtain ⟨body, _, names⟩ := d
      obtain rfl := open_
      refine sound.of_same rfl ?_ rfl
      simp [closedBlocks, blocksAround, Opening.blocks, blocksAll, layoutAround_cons,
        Opening.layout]
  | closeIf => exact closing .conditional (by decide) added
  | closeFor => exact closing .loop (by decide) added
  | closeBlock label =>
      obtain ⟨name, opened, before, around, open_, -, rfl⟩ := eq_of_closeBlock added
      obtain ⟨body, _, names⟩ := d
      obtain rfl := open_
      refine ⟨sound.names.trans ?_, sound.distinct⟩
      have perm := (closedBlocks_closeBlock around body before names opened line name).map Prod.fst
      rw [List.map_append] at perm
      refine List.Perm.trans ?_ (perm.append_right _).symm
      rw [List.append_assoc]
      rfl

/-- **A program that is written and a draft take a directive in step**: both refuse it for the same
cause, or the program goes on as the draft does. -/
theorem assembly_add (sound : d.Sound) {directive : Directive} (filled : directive ≠ .text "") :
    d.assembly.add line directive = (d.add line directive).map assembly := by
  obtain ⟨body, around, names⟩ := d
  cases directive with
  | text s =>
      have nonempty : s ≠ "" := fun empty => filled (congrArg Directive.text empty)
      exact congrArg Except.ok (assembly_pushText _ line nonempty).symm
  | output | call =>
      exact congrArg Except.ok (assembly_push _ line (fun _ _ => rfl) rfl fun _ => rfl).symm
  | openIf | openFor =>
      refine congrArg Except.ok (assembly_begin _ line (fun _ => ?_) (fun _ => rfl) rfl
        fun _ => rfl).symm
      rw [assembly, length_stackAround]
      rfl
  | openBlock name =>
      simp only [Assembly.add, Assembly.openBlock, sound.mem_names_iff, add]
      split
      · rfl
      · exact congrArg Except.ok (assembly_begin _ line (fun _ => rfl) (fun _ => rfl) rfl
          fun _ => rfl).symm
  | orElse =>
      cases around with
      | nil => rfl
      | cons e around =>
          obtain ⟨opening, opened, before⟩ := e
          cases opening with
          | ifThen condition => exact assembly_orElse
          | ifElse | loop | block => rfl
  | closeIf =>
      cases around with
      | nil => rfl
      | cons e around =>
          obtain ⟨opening, opened, before⟩ := e
          cases opening with
          | ifThen condition => exact assembly_closeIf_ifThen
          | ifElse condition yes elseLine => exact assembly_closeIf_ifElse
          | loop | block => rfl
  | closeFor =>
      cases around with
      | nil => rfl
      | cons e around =>
          obtain ⟨opening, opened, before⟩ := e
          cases opening with
          | loop item collection => exact assembly_closeFor
          | ifThen | ifElse | block => rfl
  | closeBlock label =>
      cases around with
      | nil => rfl
      | cons e around =>
          obtain ⟨opening, opened, before⟩ := e
          cases opening with
          | block name =>
              by_cases named : label = "" ∨ label = name
              · have closed : add ⟨body, ⟨.block name, opened, before⟩ :: around, names⟩ line
                    (.closeBlock label) =
                      .ok ⟨.block opened name body.reverse line :: before, around, names⟩ :=
                  if_pos named
                rw [closed]
                exact assembly_closeBlock named (sound.add closed).distinct_closed
              · simp [Assembly.add, Assembly.closeBlock, Assembly.checkLabel, assembly, stackAround,
                  Opening.pending, add, closeBlock, named]
                rfl
          | ifThen | ifElse | loop => rfl

/-- Sections are taken in step as well. -/
theorem assembly_addAll (sound : d.Sound) {sections : List (Nat × Section)}
    (filled : ∀ piece ∈ sections, piece.2 ≠ .text []) :
    d.assembly.addAll sections = (d.addAll sections).map assembly := by
  induction sections generalizing d with
  | nil => rfl
  | cons piece sections ih =>
      obtain ⟨line, s⟩ := piece
      rw [List.forall_mem_cons] at filled
      rw [Assembly.addAll, addAll, Assembly.addSection, addSection]
      cases asked : Directive.ofSection s with
      | error cause => rfl
      | ok directive =>
          cases directive with
          | none => exact ih sound filled.2
          | some directive =>
              have nonempty : directive ≠ .text "" := by
                rintro rfl
                exact filled.1 (Directive.eq_text_of_ofSection asked)
              simp only [assembly_add sound nonempty]
              cases added : d.add line directive with
              | error cause => rfl
              | ok next => exact ih (sound.add added) filled.2

/-- A program is finished where its draft is, as the program of the tree. -/
theorem assembly_finish (d : Draft) : d.assembly.finish = d.finish.map Program.ofNodes := by
  obtain ⟨body, around, names⟩ := d
  cases around with
  | nil =>
      refine congrArg Except.ok ?_
      simp [assembly, layoutWithin, layoutAround, depthAround, closedBlocks, blocksAround,
        Program.ofNodes]
      rfl
  | cons e around =>
      rw [Assembly.finish, finish]
      simp only [assembly, stackAround, Opening.construct_pending]
      rfl

end Draft

/-! ## Sources -/

/-- Whatever sections have been written, the operations that open constructs will fill in stand
where the stack says: no target is ever filled in elsewhere, and none is left out. -/
theorem Assembly.waits_of_addAll {sections : List (Nat × Section)} {a : Assembly}
    (filled : ∀ piece ∈ sections, piece.2 ≠ .text [])
    (written : Assembly.empty.addAll sections = .ok a) :
    ∀ b ∈ a.stack, b.Waits a.instrs.toList := by
  have start : Draft.empty.assembly = .empty := rfl
  rw [← start, Draft.assembly_addAll .empty filled] at written
  cases made : Draft.empty.addAll sections with
  | error error =>
      rw [made] at written
      cases written
  | ok d =>
      rw [made] at written
      obtain rfl := Except.ok.inj written
      exact waits_layoutWithin d.around d.body

/-- **The program that is written for a source in one pass is the one that its tree is laid out
as**, and both refuse the same sources, on the same line and for the same cause. -/
theorem Program.ofSource_eq (source : List Char) :
    Program.ofSource source = (Node.ofSource source).map Program.ofNodes := by
  have taken := Draft.assembly_addAll .empty (Section.ne_text_of_mem_ofSource source)
  have start : Draft.empty.assembly = .empty := rfl
  rw [Program.ofSource, ← start, taken, Node.ofSource]
  cases Draft.empty.addAll (Section.ofSource source) with
  | error error => rfl
  | ok d => exact d.assembly_finish

namespace Program

variable {source : List Char} {program : Program} {nodes : List Node}

theorem eq_of_ofSource (written : ofSource source = .ok program)
    (tree : Node.ofSource source = .ok nodes) : program = ofNodes nodes := by
  rw [ofSource_eq, tree] at written
  exact (Except.ok.inj written).symm

theorem ofSource_ne_ok {error : Nat × CompileError.Cause}
    (refused : Node.ofSource source = .error error) (program : Program) :
    ofSource source ≠ .ok program := by
  rw [ofSource_eq, refused]
  nofun

end Program

end BraceTemplate
