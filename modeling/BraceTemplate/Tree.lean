/-
# BraceTemplate.Tree — the directive tree

A source text is a list of nodes: text, expressions, calls, and constructs with nodes inside. Every
node keeps the lines of its directives.

`size` counts the operations of a node and `depth` the constructs nested in it; both are what the
flat program of the tree is laid out by.
-/
import BraceTemplate.Expr

namespace BraceTemplate

set_option autoImplicit false

/-- A node of the directive tree. -/
inductive Node where
  | text (line : Nat) (s : String)
  | output (line : Nat) (expr : Expr)
  | call (line : Nat) (name : String) (arguments : List (String × Expr))
  /-- An `if` without `else`. -/
  | ifThen (line : Nat) (condition : Expr) (yes : List Node) (endLine : Nat)
  | ifElse (line : Nat) (condition : Expr) (yes : List Node) (elseLine : Nat) (no : List Node)
      (endLine : Nat)
  | loop (line : Nat) (item : String) (collection : Expr) (body : List Node) (endLine : Nat)
  | block (line : Nat) (name : String) (body : List Node) (endLine : Nat)
  deriving Inhabited

mutual

/-- The number of operations of a node: one for each directive and each text. -/
def Node.size : Node → Nat
  | .text _ _ | .output _ _ | .call _ _ _ => 1
  | .ifThen _ _ yes _ => sizes yes + 2
  | .ifElse _ _ yes _ no _ => sizes yes + sizes no + 3
  | .loop _ _ _ body _ => sizes body + 2
  | .block _ _ body _ => sizes body + 2

/-- The number of operations of nodes in a row. -/
def sizes : List Node → Nat
  | [] => 0
  | node :: rest => node.size + sizes rest

end

mutual

/-- How many constructs are nested in each other in a node, itself counted. -/
def Node.depth : Node → Nat
  | .text _ _ | .output _ _ | .call _ _ _ => 0
  | .ifThen _ _ yes _ => depths yes + 1
  | .ifElse _ _ yes _ no _ => max (depths yes) (depths no) + 1
  | .loop _ _ _ body _ => depths body + 1
  | .block _ _ body _ => depths body + 1

/-- The greatest depth of nodes in a row. -/
def depths : List Node → Nat
  | [] => 0
  | node :: rest => max node.depth (depths rest)

end

end BraceTemplate
