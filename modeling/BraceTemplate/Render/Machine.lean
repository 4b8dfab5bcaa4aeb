/-
# BraceTemplate.Render.Machine — running flat programs

A run is a stack of frames. The innermost frame runs a range of operations of one template with
slots of its own; the frames below wait for it, each at the operation after the block whose
replacement is being run. Local variables and the output are shared by all frames.

`Machine.step` runs one operation of the innermost frame, or leaves it when its range is done. An
operation that does not fit the slots or the program is a fault. Jumps go forward, except from the
end of a loop to the beginning of its own body while items remain.
-/
import BraceTemplate.Render.Resolve

namespace BraceTemplate.Machine

set_option autoImplicit false

/-- A loop that is running. -/
structure Loop where
  item : String
  /-- The items it goes through. -/
  items : List Value
  /-- The position of the current item. -/
  index : Nat
  /-- What the item name was bound to before the loop. -/
  outerItem : Option Value
  /-- What the index name was bound to before the loop. -/
  outerIndex : Option Value
  /-- The position of the first operation of the body. -/
  bodyAt : Nat

/-- The state of one construct. -/
inductive Slot where
  | empty
  /-- An `if` whose condition did or did not hold. -/
  | branch (taken : Bool)
  | loop (l : Loop)

/-- A range of operations that is being run. -/
structure Frame where
  template : Template
  /-- The block that this frame replaces, if it is not the rendered template itself. -/
  replaces : Option String
  /-- The end of the range. -/
  stop : Nat
  /-- The position of the next operation. -/
  ip : Nat
  slots : List Slot

/-- A run: its frames, innermost first, and what they share. -/
structure State where
  frames : List Frame
  locals : Dict Value
  output : String

/-- Why an operation cannot be run at all. -/
inductive Fault where
  /-- There is no operation at the position. -/
  | noOperation
  /-- The slot does not exist. -/
  | noSlot
  /-- The end of a first branch is reached although the branch was not taken. -/
  | branchNotTaken
  /-- The end of a loop is reached that is not running. -/
  | loopNotRunning
  /-- A jump does not go forward. -/
  | backwardJump
  deriving DecidableEq, Repr

/-- What one operation leads to. -/
inductive Move where
  /-- The frame goes on at a position, and a text is added to the output. -/
  | go (ip : Nat) (slots : List Slot) (locals : Dict Value) (added : String)
  /-- A replacement is run, and the frame goes on at a position after it. -/
  | enter (name : String) (body : Override) (resume : Nat)
  | fail (cause : RenderError.Cause)
  | fault (f : Fault)

/-- Local variables with the names of a loop bound as they were before it. -/
def unbindItem (locals : Dict Value) (l : Loop) : Dict Value :=
  (locals.assign l.item l.outerItem).assign (indexName l.item) l.outerIndex

section Exec

variable (env : Env) (active : List String) (ip : Nat) (slots : List Slot) (locals : Dict Value)

/-- Changes a slot and goes on from there. -/
def withSlot (slot : Nat) (state : Slot) (k : List Slot → Move) : Move :=
  if slot < slots.length then k (slots.set slot state) else .fault .noSlot

/-- Goes on at a later position. -/
def jump (target : Nat) (slots : List Slot) : Move :=
  if ip < target then .go target slots locals "" else .fault .backwardJump

/-- The end of a loop's body: the next item, or the end of the loop. -/
def endLoop (slot bodyAt : Nat) (l : Loop) : Move :=
  if l.bodyAt = bodyAt ∧ 0 < bodyAt ∧ bodyAt ≤ ip then
    match l.items[l.index + 1]? with
    | some v =>
        withSlot slots slot (.loop { l with index := l.index + 1 }) fun slots =>
          .go bodyAt slots (bindItem locals l.item v (l.index + 1)) ""
    | none =>
        withSlot slots slot .empty fun slots => .go (ip + 1) slots (unbindItem locals l) ""
  else .fault .loopNotRunning

/-- The beginning of a loop over items. -/
def beginLoop (item : String) (slot endAt : Nat) : List Value → Move
  | [] => withSlot slots slot .empty fun slots => jump ip locals (endAt + 1) slots
  | v :: rest =>
      let l : Loop :=
        { item, items := v :: rest, index := 0, bodyAt := ip + 1
          outerItem := locals.find? item, outerIndex := locals.find? (indexName item) }
      withSlot slots slot (.loop l) fun slots =>
        .go (ip + 1) slots (bindItem locals item v 0) ""

/-- Runs an operation at a position, given the blocks whose replacements are being run and the
output so far. -/
def exec (output : String) : Op → Move
  | .text s => .go (ip + 1) slots locals s
  | .output expr =>
      match env.output locals expr with
      | .ok s => .go (ip + 1) slots locals s
      | .error cause => .fail cause
  | .call name arguments =>
      match env.call locals output name arguments with
      | .ok s => .go (ip + 1) slots locals s
      | .error cause => .fail cause
  | .beginIf condition slot elseAt endAt =>
      match env.holds locals condition with
      | .ok taken =>
          let target := if taken then ip + 1 else match elseAt with
            | some elseAt => elseAt + 1
            | none => endAt
          withSlot slots slot (.branch taken) fun slots => jump ip locals target slots
      | .error cause => .fail cause
  | .orElse slot endAt =>
      match slots[slot]? with
      | some (.branch true) => jump ip locals endAt slots
      | _ => .fault .branchNotTaken
  | .endIf slot =>
      withSlot slots slot .empty fun slots => .go (ip + 1) slots locals ""
  | .beginFor item collection slot endAt =>
      match env.items locals collection with
      | .ok items => beginLoop ip slots locals item slot endAt items
      | .error cause => .fail cause
  | .endFor slot bodyAt =>
      match slots[slot]? with
      | some (.loop l) => endLoop ip slots locals slot bodyAt l
      | _ => .fault .loopNotRunning
  | .beginBlock name endAt =>
      match env.override? active name with
      | none => .go (ip + 1) slots locals ""
      | some body => if ip ≤ endAt then .enter name body (endAt + 1) else .fault .backwardJump
  | .endBlock => .go (ip + 1) slots locals ""

end Exec

/-- A frame at the beginning of a range of a template. -/
def Frame.start (template : Template) (replaces : Option String) (range : Range) : Frame :=
  { template, replaces, stop := range.stop, ip := range.start
    slots := List.replicate template.program.slotCount .empty }

/-- The blocks whose replacements are being run, innermost first. -/
def active (frames : List Frame) : List String :=
  frames.filterMap Frame.replaces

/-- What one step leads to. -/
inductive Step where
  | next (s : State)
  | done (output : String)
  | failed (error : RenderError)
  | fault (f : Fault)

/-- One step: an operation of the innermost frame, or its end. -/
def step (env : Env) : State → Step
  | ⟨[], _, output⟩ => .done output
  | ⟨f :: rest, locals, output⟩ =>
      if f.ip < f.stop then
        match f.template.program.instrs[f.ip]? with
        | none => .fault .noOperation
        | some instr =>
            match exec env (active (f :: rest)) f.ip f.slots locals output instr.op with
            | .go ip slots locals added =>
                .next ⟨{ f with ip, slots } :: rest, locals, output ++ added⟩
            | .enter name body resume =>
                let inner := Frame.start body.template (some name) body.range
                .next ⟨inner :: { f with ip := resume } :: rest, locals, output⟩
            | .fail cause => .failed ⟨f.template.name, f.ip, instr.line, cause⟩
            | .fault fault => .fault fault
      else .next ⟨rest, locals, output⟩

/-- The state in which a template begins to be rendered. -/
def initial (t : Template) : State :=
  { frames := [Frame.start t none ⟨0, t.opCount⟩], locals := [], output := "" }

end BraceTemplate.Machine
