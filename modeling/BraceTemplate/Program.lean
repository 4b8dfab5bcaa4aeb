/-
# BraceTemplate.Program — flat programs

A program is a row of operations. Constructs are pairs of a begin and an end operation that know
each other's position, so that running a program never searches. The state of an `if` or a loop is
kept in a slot, numbered by the constructs around it.
-/
import BraceTemplate.Dict
import BraceTemplate.Expr

namespace BraceTemplate

set_option autoImplicit false

/-- An operation. -/
inductive Op where
  | text (s : String)
  | output (expr : Expr)
  | call (name : String) (arguments : List (String × Expr))
  /-- Goes on if the condition holds, else after `elseAt`, or at `endAt` if there is none. -/
  | beginIf (condition : Expr) (slot : Nat) (elseAt : Option Nat) (endAt : Nat)
  /-- The end of the first branch; goes on at `endAt`. -/
  | orElse (slot : Nat) (endAt : Nat)
  | endIf (slot : Nat)
  /-- Takes the first item of a list, or goes on after `endAt` if there is none. -/
  | beginFor (item : String) (collection : Expr) (slot : Nat) (endAt : Nat)
  /-- Takes the next item and goes on at `bodyAt`, or ends the loop. -/
  | endFor (slot : Nat) (bodyAt : Nat)
  /-- The region up to `endAt` can be replaced under a name. -/
  | beginBlock (name : String) (endAt : Nat)
  | endBlock
  deriving DecidableEq, Repr, Inhabited

/-- An operation and the line of its directive. -/
structure Instr where
  op : Op
  line : Nat
  deriving DecidableEq, Repr, Inhabited

/-- The positions from `start` up to but not including `stop`. -/
structure Range where
  start : Nat
  stop : Nat
  deriving DecidableEq, Repr

/-- A flat program. -/
structure Program where
  instrs : Array Instr
  /-- How many slots a run needs. -/
  slotCount : Nat
  /-- The body of every block, without the operations that begin and end it. -/
  blocks : Dict Range
  deriving DecidableEq, Repr

end BraceTemplate
