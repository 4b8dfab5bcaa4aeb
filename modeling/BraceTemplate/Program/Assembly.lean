/-
# BraceTemplate.Program.Assembly — writing a program in one pass

A program is written section by section. A begin operation is written before its end is known: its
targets are left open (no `else`, end at 0) and the construct is kept on a stack with the position
of the operation. The directive that closes the construct writes the end operation and fills in the
targets, at the positions that the stack has kept and only if the expected operation stands there.
The slot of a construct is the number of constructs around it.

`Program.ofSource` writes the program of a whole source text; its errors carry the line to be
reported.
-/
import BraceTemplate.Directive
import BraceTemplate.Program

namespace BraceTemplate

set_option autoImplicit false

/-- Gives the begin operation of an `if` its targets. -/
def Op.fillIf (elseAt : Option Nat) (endAt : Nat) : Op → Op
  | .beginIf condition slot _ _ => .beginIf condition slot elseAt endAt
  | op => op

/-- Gives an `else` its target. -/
def Op.fillElse (endAt : Nat) : Op → Op
  | .orElse slot _ => .orElse slot endAt
  | op => op

/-- Gives the begin operation of a loop its target. -/
def Op.fillFor (endAt : Nat) : Op → Op
  | .beginFor item collection slot _ => .beginFor item collection slot endAt
  | op => op

/-- Gives the begin operation of a block its target. -/
def Op.fillBlock (endAt : Nat) : Op → Op
  | .beginBlock name _ => .beginBlock name endAt
  | op => op

/-- What is known of an open construct beyond where it begins. -/
inductive Pending where
  /-- An `if`, and the position of its `else` if that has come. -/
  | conditional (elseAt : Option Nat)
  | loop
  | block (name : String)
  deriving DecidableEq, Repr

/-- The construct that is open. -/
def Pending.construct : Pending → Construct
  | .conditional _ => .conditional
  | .loop => .loop
  | .block _ => .block

/-- A construct on the stack. -/
structure Begun where
  pending : Pending
  /-- The position of the begin operation. -/
  beginAt : Nat
  /-- The line of the opening directive. -/
  line : Nat
  deriving DecidableEq, Repr

/-- A program that is being written. -/
@[ext]
structure Assembly where
  instrs : Array Instr
  slotCount : Nat
  /-- The blocks that are closed. -/
  blocks : Dict Range
  /-- The open constructs, innermost first. -/
  stack : List Begun

namespace Assembly

open CompileError

/-- Nothing written yet. -/
def empty : Assembly := ⟨#[], 0, [], []⟩

/-- Writes an operation at the next position. -/
def emit (a : Assembly) (line : Nat) (op : Op) : Assembly :=
  { a with instrs := a.instrs.push ⟨op, line⟩ }

/-- Writes text, at the end of a text that stands right in front. -/
def emitText (a : Assembly) (line : Nat) (s : String) : Assembly :=
  if s.isEmpty then a
  else
    match a.instrs.back? with
    | some ⟨.text before, first⟩ =>
        { a with instrs := a.instrs.pop.push ⟨.text (before ++ s), first⟩ }
    | _ => a.emit line (.text s)

/-- Changes the operation at a position. -/
def patch (a : Assembly) (position : Nat) (fill : Op → Op) : Assembly :=
  { a with instrs := a.instrs.modify position fun i => { i with op := fill i.op } }

/-- Opens a construct whose begin operation is written next. -/
def push (a : Assembly) (line : Nat) (pending : Pending) : Assembly :=
  { a with
    stack := ⟨pending, a.instrs.size, line⟩ :: a.stack
    slotCount := max a.slotCount (a.stack.length + 1) }

/-- Takes the innermost construct, which must be of a given kind, from the stack. -/
def pop (a : Assembly) (construct : Construct) : Except Cause (Begun × Assembly) :=
  match a.stack with
  | [] => .error (.closesNothing construct)
  | b :: stack =>
      if b.pending.construct = construct then .ok (b, { a with stack := stack })
      else .error (.closesOther construct b.pending.construct b.line)

def openIf (a : Assembly) (line : Nat) (condition : Expr) : Assembly :=
  (a.push line (.conditional none)).emit line (.beginIf condition a.stack.length none 0)

/-- Notes the position of an `else` with its `if`. -/
def orElse (a : Assembly) (line : Nat) : Except Cause Assembly :=
  match a.stack with
  | [] => .error .elseOutside
  | b :: stack =>
      match b.pending with
      | .conditional none =>
          let noted := { b with pending := .conditional (some a.instrs.size) }
          .ok ({ a with stack := noted :: stack }.emit line (.orElse stack.length 0))
      | .conditional (some _) => .error (.secondElse b.line)
      | pending => .error (.elseInside pending.construct b.line)

def closeIf (a : Assembly) (line : Nat) : Except Cause Assembly := do
  let (b, a) ← a.pop .conditional
  let endAt := a.instrs.size
  let elseAt := match b.pending with
    | .conditional elseAt => elseAt
    | _ => none
  let a := (a.emit line (.endIf a.stack.length)).patch b.beginAt (.fillIf elseAt endAt)
  return match elseAt with
    | none => a
    | some middle => a.patch middle (.fillElse endAt)

def openFor (a : Assembly) (line : Nat) (item : String) (collection : Expr) : Assembly :=
  (a.push line .loop).emit line (.beginFor item collection a.stack.length 0)

def closeFor (a : Assembly) (line : Nat) : Except Cause Assembly := do
  let (b, a) ← a.pop .loop
  let endAt := a.instrs.size
  return (a.emit line (.endFor a.stack.length (b.beginAt + 1))).patch b.beginAt (.fillFor endAt)

/-- Whether a block of a name is open. -/
def isOpen (a : Assembly) (name : String) : Bool :=
  a.stack.any fun b => b.pending == .block name

def openBlock (a : Assembly) (line : Nat) (name : String) : Except Cause Assembly :=
  if a.blocks.contains name || a.isOpen name then .error (.blockAlreadyDefined name)
  else .ok ((a.push line (.block name)).emit line (.beginBlock name 0))

/-- A label must be the name of the innermost construct, if that is a block. -/
def checkLabel (a : Assembly) (label : String) : Except Cause Unit :=
  match a.stack with
  | ⟨.block name, _, _⟩ :: _ =>
      if label = "" ∨ label = name then .ok () else .error (.closesOtherBlock label name)
  | _ => .ok ()

def closeBlock (a : Assembly) (line : Nat) (label : String) : Except Cause Assembly := do
  a.checkLabel label
  let (b, a) ← a.pop .block
  let endAt := a.instrs.size
  let a := (a.emit line .endBlock).patch b.beginAt (.fillBlock endAt)
  return match b.pending with
    | .block name => { a with blocks := a.blocks.insert name ⟨b.beginAt + 1, endAt⟩ }
    | _ => a

/-- Writes what a directive on a given line asks for. -/
def add (a : Assembly) (line : Nat) : Directive → Except Cause Assembly
  | .text s => .ok (a.emitText line s)
  | .output expr => .ok (a.emit line (.output expr))
  | .call name arguments => .ok (a.emit line (.call name arguments))
  | .openIf condition => .ok (a.openIf line condition)
  | .orElse => a.orElse line
  | .closeIf => a.closeIf line
  | .openFor item collection => .ok (a.openFor line item collection)
  | .closeFor => a.closeFor line
  | .openBlock name => a.openBlock line name
  | .closeBlock label => a.closeBlock line label

/-- Writes what a section on a given line asks for. -/
def addSection (a : Assembly) (line : Nat) (s : Section) : Except Cause Assembly :=
  match Directive.ofSection s with
  | .ok (some directive) => a.add line directive
  | .ok none => .ok a
  | .error cause => .error cause

/-- Writes what sections with their lines ask for; an error is reported with its line. -/
def addAll (a : Assembly) : List (Nat × Section) → Except (Nat × Cause) Assembly
  | [] => .ok a
  | (line, s) :: rest =>
      match a.addSection line s with
      | .ok a => a.addAll rest
      | .error cause => .error (line, cause)

/-- The program, if no construct is open. -/
def finish (a : Assembly) : Except (Nat × Cause) Program :=
  match a.stack with
  | [] => .ok ⟨a.instrs, a.slotCount, a.blocks⟩
  | b :: _ => .error (b.line, .neverClosed b.pending.construct)

end Assembly

/-- The program of a source text, or the first error with its line. -/
def Program.ofSource (source : List Char) : Except (Nat × CompileError.Cause) Program :=
  match Assembly.empty.addAll (Section.ofSource source) with
  | .ok assembly => assembly.finish
  | .error error => .error error

end BraceTemplate
