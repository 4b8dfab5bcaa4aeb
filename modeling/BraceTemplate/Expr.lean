/-
# BraceTemplate.Expr — variable expressions

An expression names a variable, walks from its value along steps (a key of a map or an index of a
list), and passes the result through modifiers: `paper.authors[0]['full name']|trim|upper`.

`Expr.text` writes an expression in the spelling that messages use. A key that is a name is written
after a dot, any other key in brackets and quotes, an index in brackets.
-/
import BraceTemplate.Text.Name

namespace BraceTemplate

set_option autoImplicit false

/-- One access step from a value to a part of it. -/
inductive Step where
  /-- The entry of a map under a key. -/
  | key (name : String)
  /-- The item of a list at an index, or the entry of a map under the index's decimal digits. -/
  | index (i : UInt64)
  deriving DecidableEq, Repr, Inhabited

/-- A variable, the steps from its value and the modifiers applied at the end. -/
structure Expr where
  root : String
  steps : List Step
  modifiers : List String
  deriving DecidableEq, Repr, Inhabited

namespace Step

/-- The digits of an index. -/
def digits (i : UInt64) : List Char :=
  Nat.toDigits 10 i.toNat

/-- A step as it is written; a quoted key stands in single quotes unless it contains one. -/
def chars : Step → List Char
  | .key name =>
      let k := name.toList
      if Text.isName k then '.' :: k
      else if k.contains '\'' then ['[', '"'] ++ k ++ ['"', ']']
      else ['[', '\''] ++ k ++ ['\'', ']']
  | .index i => '[' :: digits i ++ [']']

/-- The text of a step. -/
def text (s : Step) : String :=
  String.ofList s.chars

end Step

namespace Expr

/-- The variable and its steps as they are written, without the modifiers. -/
def pathChars (e : Expr) : List Char :=
  e.root.toList ++ e.steps.flatMap Step.chars

/-- An expression as it is written. -/
def chars (e : Expr) : List Char :=
  e.pathChars ++ e.modifiers.flatMap fun m => '|' :: m.toList

/-- The text of the variable and its steps. -/
def pathText (e : Expr) : String :=
  String.ofList e.pathChars

/-- The text of an expression. -/
def text (e : Expr) : String :=
  String.ofList e.chars

end Expr

end BraceTemplate
