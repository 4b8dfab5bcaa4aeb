/-
# BraceTemplate.Template — compiled templates

A template is a name, the directive tree of its source and a flat program. The program is what is
written for the source and what runs; the tree says what it means.

* `Template.compile_eq_ok_iff`, `Template.compile_eq_error_iff`: when a source compiles, through its
  tree;
* `Template.ofSource_of_compile`: the program of a template is the one that is written for the source.
-/
import BraceTemplate.Program.Drafted

namespace BraceTemplate

set_option autoImplicit false

/-- A compiled template. -/
structure Template where
  name : String
  nodes : List Node
  program : Program
  /-- The program is the one that the tree is laid out as. -/
  program_eq : program = Program.ofNodes nodes

namespace Template

/-- The template of a tree. -/
def ofNodes (name : String) (nodes : List Node) : Template :=
  ⟨name, nodes, Program.ofNodes nodes, rfl⟩

/-- Compiles a source text under a name, which error messages show. The program is written in one
pass; that the source has a tree then, and which program it is, follows from `ofSource_eq`. -/
def compile (name source : String) : Except CompileError Template :=
  match written : Program.ofSource source.toList with
  | .error (line, cause) => .error ⟨name, line, cause⟩
  | .ok program =>
      match tree : Node.ofSource source.toList with
      | .ok nodes => .ok ⟨name, nodes, program, Program.eq_of_ofSource written tree⟩
      | .error _ => absurd written (Program.ofSource_ne_ok tree program)

/-- Compiling is arranging the tree of a source. -/
theorem compile_eq (name source : String) :
    compile name source =
      match Node.ofSource source.toList with
      | .ok nodes => .ok (ofNodes name nodes)
      | .error (line, cause) => .error ⟨name, line, cause⟩ := by
  have same := Program.ofSource_eq source.toList
  unfold compile
  split
  · rename_i line cause written
    rw [written] at same
    cases tree : Node.ofSource source.toList with
    | error error =>
        rw [tree] at same
        rw [← Except.error.inj same]
    | ok nodes =>
        rw [tree] at same
        cases same
  · rename_i program written
    split
    · rename_i nodes tree
      obtain rfl := Program.eq_of_ofSource written tree
      simp only [tree]
      rfl
    · rename_i error tree
      exact absurd written (Program.ofSource_ne_ok tree program)

theorem compile_eq_ok_iff {name source : String} {t : Template} :
    compile name source = .ok t ↔
      ∃ nodes, Node.ofSource source.toList = .ok nodes ∧ t = ofNodes name nodes := by
  rw [compile_eq]
  cases Node.ofSource source.toList with
  | ok nodes =>
      constructor
      · exact fun same => ⟨nodes, rfl, (Except.ok.inj same).symm⟩
      · rintro ⟨_, ⟨⟩, rfl⟩
        rfl
  | error error => exact ⟨nofun, nofun⟩

theorem compile_eq_error_iff {name source : String} {e : CompileError} :
    compile name source = .error e ↔
      e.template = name ∧ Node.ofSource source.toList = .error (e.line, e.cause) := by
  obtain ⟨template, line, cause⟩ := e
  rw [compile_eq]
  cases Node.ofSource source.toList with
  | ok nodes => simp
  | error error =>
      obtain ⟨line', cause'⟩ := error
      simp [@eq_comm _ name]

/-- The program of a template that was compiled is the one that was written for its source. -/
theorem ofSource_of_compile {name source : String} {t : Template}
    (compiled : compile name source = .ok t) : Program.ofSource source.toList = .ok t.program := by
  obtain ⟨nodes, tree, rfl⟩ := compile_eq_ok_iff.1 compiled
  rw [Program.ofSource_eq, tree]
  rfl

/-- Compiles a source text that has no name of its own. -/
def compileInline (source : String) : Except CompileError Template :=
  compile "<inline>" source

/-- The number of operations. -/
def opCount (t : Template) : Nat :=
  t.program.instrs.size

/-- The names of the blocks, in ascending order. -/
def blockNames (t : Template) : List String :=
  t.program.blocks.keys

/-- Whether there is a block of a name. -/
def hasBlock (t : Template) (name : String) : Bool :=
  t.program.blocks.contains name

end Template

end BraceTemplate
