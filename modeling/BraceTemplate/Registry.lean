/-
# BraceTemplate.Registry — what the host supplies to a render

Modifiers transform the value of an expression. Callables append text to the output. Both are taken
as stateless: what they return depends on their arguments alone. Overrides replace the bodies of
blocks: an override is a whole template or the body of one of its blocks, and keeps the template it
belongs to.

`Override.part` says that an override's nodes stand in its template where its range says.
-/
import BraceTemplate.Template
import BraceTemplate.Value

namespace BraceTemplate

set_option autoImplicit false

/-- A function from value to value, or to an error with a message. It keeps no state between calls,
so equal values have equal results. -/
abbrev Modifier := Value → Except String Value

/-- A function from the arguments and the output so far to the text it appends, or to an error with
a message. It keeps no state between calls and only appends: it cannot change the output it sees. -/
abbrev Callable := Dict Value → String → Except String String

/-- Modifiers by name. -/
abbrev Modifiers := Dict Modifier

/-- Callables by name. -/
abbrev Callables := Dict Callable

/-- A replacement for the body of a block. -/
structure Override where
  template : Template
  /-- The position of the first operation. -/
  start : Nat
  nodes : List Node
  /-- The nodes are those of the whole template or of one of its blocks. -/
  part : (start = 0 ∧ nodes = template.nodes) ∨
    ∃ name, (name, start, nodes) ∈ blocksAll 0 template.nodes

namespace Override

/-- The operations to be run. -/
def range (o : Override) : Range :=
  Program.rangeOf o.start o.nodes

/-- A whole template as a replacement. -/
def whole (t : Template) : Override :=
  ⟨t, 0, t.nodes, .inl ⟨rfl, rfl⟩⟩

/-- The bodies of a template's blocks as replacements, by name. -/
def ofBlocks (t : Template) : List (String × Override) :=
  (blocksAll 0 t.nodes).attach.map fun ⟨(name, start, nodes), h⟩ =>
    (name, ⟨t, start, nodes, .inr ⟨name, h⟩⟩)

end Override

/-- Replacements by block name. -/
abbrev Overrides := Dict Override

namespace Overrides

/-- Adds the bodies of all blocks of a template, each under the name of its block. -/
def extend (overrides : Overrides) (t : Template) : Overrides :=
  (Override.ofBlocks t).foldl (fun d entry => d.insert entry.1 entry.2) overrides

/-- Adds a source text as the replacement for a block. -/
def insertSource (overrides : Overrides) (name source : String) :
    Except CompileError Overrides :=
  (Template.compile ("block:" ++ name) source).map fun t => Dict.insert overrides name (.whole t)

end Overrides

end BraceTemplate
