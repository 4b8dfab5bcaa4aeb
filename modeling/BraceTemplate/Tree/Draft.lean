/-
# BraceTemplate.Tree.Draft — arranging directives in a tree

A draft is a tree that is being written: the constructs that are open, innermost first, and the
nodes of each one so far. Directives are added one by one; the first one that may not stand where it
does is refused. Text next to text becomes one node, on the line where it begins. Block names are
unique in a source, nested blocks and open ones included.

`Node.ofSource` reads a whole source text; its errors carry the line to be reported.

* `Draft.eq_of_close`, `Draft.eq_of_orElse`, `Draft.eq_of_closeBlock`, `Draft.eq_of_openBlock`: where
  a directive can stand, and the draft behind it.
-/
import BraceTemplate.Directive
import BraceTemplate.Tree

namespace BraceTemplate

set_option autoImplicit false

/-- How an open construct began. -/
inductive Opening where
  | ifThen (condition : Expr)
  /-- An `if` whose `else` has come: its first branch and the line of the `else`. -/
  | ifElse (condition : Expr) (yes : List Node) (elseLine : Nat)
  | loop (item : String) (collection : Expr)
  | block (name : String)

namespace Opening

/-- The construct that is open. -/
def construct : Opening → Construct
  | .ifThen _ | .ifElse _ _ _ => .conditional
  | .loop _ _ => .loop
  | .block _ => .block

/-- The node of a construct, given the nodes of its last branch. -/
def close (opening : Opening) (line : Nat) (body : List Node) (endLine : Nat) : Node :=
  match opening with
  | .ifThen condition => .ifThen line condition body endLine
  | .ifElse condition yes elseLine => .ifElse line condition yes elseLine body endLine
  | .loop item collection => .loop line item collection body endLine
  | .block name => .block line name body endLine

end Opening

/-- An open construct. -/
structure Enclosing where
  opening : Opening
  /-- The line of the opening directive. -/
  line : Nat
  /-- The nodes in front of the construct, the latest first. -/
  before : List Node

/-- A tree that is being written. -/
structure Draft where
  /-- The nodes of the innermost open construct, the latest first. -/
  body : List Node
  /-- The open constructs, innermost first. -/
  around : List Enclosing
  /-- The names of all blocks so far. -/
  names : List String

namespace Draft

open CompileError

/-- Nothing written yet. -/
def empty : Draft := ⟨[], [], []⟩

/-- Adds a node. -/
def push (d : Draft) (node : Node) : Draft :=
  { d with body := node :: d.body }

/-- Adds text, to the text before it if there is one. -/
def pushText (d : Draft) (line : Nat) (s : String) : Draft :=
  match d.body with
  | .text first before :: rest => { d with body := .text first (before ++ s) :: rest }
  | body => { d with body := .text line s :: body }

/-- Opens a construct. -/
def begin (d : Draft) (line : Nat) (opening : Opening) : Draft :=
  { d with body := [], around := ⟨opening, line, d.body⟩ :: d.around }

/-- Closes the innermost construct, which must be of a given kind. -/
def close (d : Draft) (line : Nat) (construct : Construct) : Except Cause Draft :=
  match d.around with
  | [] => .error (.closesNothing construct)
  | e :: around =>
      if e.opening.construct = construct then
        let node := e.opening.close e.line d.body.reverse line
        .ok { d with body := node :: e.before, around := around }
      else .error (.closesOther construct e.opening.construct e.line)

/-- Ends the first branch of the innermost construct, which must be an `if` without `else`. -/
def orElse (d : Draft) (line : Nat) : Except Cause Draft :=
  match d.around with
  | [] => .error .elseOutside
  | e :: around =>
      match e.opening with
      | .ifThen condition =>
          let opening := .ifElse condition d.body.reverse line
          .ok { d with body := [], around := { e with opening := opening } :: around }
      | .ifElse _ _ _ => .error (.secondElse e.line)
      | opening => .error (.elseInside opening.construct e.line)

/-- Closes the innermost block; a label must be its name. -/
def closeBlock (d : Draft) (line : Nat) (label : String) : Except Cause Draft :=
  match d.around with
  | ⟨.block name, _, _⟩ :: _ =>
      if label = "" ∨ label = name then d.close line .block
      else .error (.closesOtherBlock label name)
  | _ => d.close line .block

/-- Adds a directive that stands on a given line. -/
def add (d : Draft) (line : Nat) : Directive → Except Cause Draft
  | .text s => .ok (d.pushText line s)
  | .output expr => .ok (d.push (.output line expr))
  | .call name arguments => .ok (d.push (.call line name arguments))
  | .openIf condition => .ok (d.begin line (.ifThen condition))
  | .orElse => d.orElse line
  | .closeIf => d.close line .conditional
  | .openFor item collection => .ok (d.begin line (.loop item collection))
  | .closeFor => d.close line .loop
  | .openBlock name =>
      if name ∈ d.names then .error (.blockAlreadyDefined name)
      else .ok { d.begin line (.block name) with names := name :: d.names }
  | .closeBlock label => d.closeBlock line label

/-- Adds a section that stands on a given line. -/
def addSection (d : Draft) (line : Nat) (s : Section) : Except Cause Draft :=
  match Directive.ofSection s with
  | .ok (some directive) => d.add line directive
  | .ok none => .ok d
  | .error cause => .error cause

/-- Adds sections with their lines; an error is reported with its line. -/
def addAll (d : Draft) : List (Nat × Section) → Except (Nat × Cause) Draft
  | [] => .ok d
  | (line, s) :: rest =>
      match d.addSection line s with
      | .ok d => d.addAll rest
      | .error cause => .error (line, cause)

/-- The nodes of a draft in which every construct is closed. -/
def finish (d : Draft) : Except (Nat × Cause) (List Node) :=
  match d.around with
  | [] => .ok d.body.reverse
  | e :: _ => .error (e.line, .neverClosed e.opening.construct)

/-! ## Where a directive can stand -/

variable {d e : Draft}

/-- Closing succeeds only behind an opening of the same construct. -/
theorem eq_of_close {endLine : Nat} {construct : Construct}
    (closed : d.close endLine construct = .ok e) :
    ∃ opening line before around, d.around = ⟨opening, line, before⟩ :: around ∧
      opening.construct = construct ∧
      e = ⟨opening.close line d.body.reverse endLine :: before, around, d.names⟩ := by
  rw [close] at closed
  split at closed
  · cases closed
  · rename_i enclosing around open_
    obtain ⟨opening, line, before⟩ := enclosing
    split at closed
    · rename_i same
      exact ⟨opening, line, before, around, open_, same, (Except.ok.inj closed).symm⟩
    · cases closed

/-- An `else` is taken only behind an `if` without one. -/
theorem eq_of_orElse {elseLine : Nat} (taken : d.orElse elseLine = .ok e) :
    ∃ condition line before around, d.around = ⟨.ifThen condition, line, before⟩ :: around ∧
      e = ⟨[], ⟨.ifElse condition d.body.reverse elseLine, line, before⟩ :: around, d.names⟩ := by
  rw [orElse] at taken
  split at taken
  · cases taken
  · rename_i enclosing around open_
    obtain ⟨opening, line, before⟩ := enclosing
    cases opening with
    | ifThen condition =>
        exact ⟨condition, line, before, around, open_, (Except.ok.inj taken).symm⟩
    | ifElse | loop | block => cases taken

/-- A block is closed only without a label or under its name. -/
theorem eq_of_closeBlock {endLine : Nat} {label : String}
    (closed : d.closeBlock endLine label = .ok e) :
    ∃ name line before around, d.around = ⟨.block name, line, before⟩ :: around ∧
      (label = "" ∨ label = name) ∧
      e = ⟨.block line name d.body.reverse endLine :: before, around, d.names⟩ := by
  rw [closeBlock] at closed
  split at closed
  · rename_i name line before around open_
    split at closed
    · rename_i named
      rw [close, open_] at closed
      exact ⟨name, line, before, around, open_, named, (Except.ok.inj closed).symm⟩
    · cases closed
  · rename_i noBlock
    obtain ⟨opening, line, before, around, open_, same, -⟩ := eq_of_close closed
    cases opening with
    | block name => exact absurd open_ (noBlock name line before around)
    | ifThen | ifElse | loop => cases same

/-- A block is opened only under a new name. -/
theorem eq_of_openBlock {line : Nat} {name : String}
    (opened : d.add line (.openBlock name) = .ok e) :
    name ∉ d.names ∧ e = { d.begin line (.block name) with names := name :: d.names } := by
  rw [add] at opened
  split at opened
  · cases opened
  · rename_i new
    exact ⟨new, (Except.ok.inj opened).symm⟩

end Draft

/-- The tree of a source text, or the first error with its line. -/
def Node.ofSource (source : List Char) : Except (Nat × CompileError.Cause) (List Node) :=
  match Draft.empty.addAll (Section.ofSource source) with
  | .ok draft => draft.finish
  | .error error => .error error

end BraceTemplate
