/-
# BraceTemplate.Proofs.Render.Compiled — compiled source texts

A source text that compiles has a directive tree, which reads as the directives of the source, and
the program that is written for the source is this tree laid out flat. So what the program of a
compiled template leads to is what the tree of its source means (`render_of_compile`).
-/
import Mathlib
import BraceTemplate.Proofs.Render.Meaning
import BraceTemplate.Proofs.Source.Transcript

namespace BraceTemplate

set_option autoImplicit false

/-- **A compiled source text renders to what it means.** The tree is that of the source: its
directives are those of the source's pieces in order, with texts next to each other joined. The
program that is written for the source is this tree laid out flat, and what running it leads to is
the text, or the first error with template, position, line and cause, that the recursion over the
tree gives. -/
theorem render_of_compile {name source : String} {t : Template}
    (compiled : Template.compile name source = .ok t) (env : Env) :
    ∃ nodes, Node.ofSource source.toList = .ok nodes ∧
      (∃ pieces ds, Pieces 1 source.toList pieces ∧ Reads ClosedRow pieces ds ∧
        directivesAll nodes = joined ds) ∧
      Program.ofSource source.toList = .ok t.program ∧ t.program = Program.ofNodes nodes ∧
      t.render env = .ofResult (meaningAll env name [] [] 0 "" nodes) := by
  have written := Template.ofSource_of_compile compiled
  obtain ⟨nodes, tree, rfl⟩ := Template.compile_eq_ok_iff.1 compiled
  obtain ⟨pieces, ds, whole, reads, -, same⟩ := directivesAll_of_ofSource tree
  exact ⟨nodes, tree, ⟨pieces, ds, whole, reads, same⟩, written, rfl, render_eq_meaning _ env⟩

set_option maxRecDepth 2000 in
/-- A loop with a conditional and a block whose override is run in each round. -/
theorem render_of_compile_loop :
    let source := "\x7b%for x xs%\x7d\x7b%if x%\x7d\x7b%block b%\x7d+\x7b%endblock%\x7d" ++
      "\x7b%else%\x7d-\x7b%endif%\x7d\x7b%endfor%\x7d"
    let nodes : List Node :=
      [.loop 1 "x" ⟨"xs", [], []⟩
        [.ifElse 1 ⟨"x", [], []⟩ [.block 1 "b" [.text 1 "+"] 1] 1 [.text 1 "-"] 1] 1]
    let env : Env :=
      { globals := Context.ofEntries [("xs", .list [.int 1, .int 0, .int 2])]
        modifiers := [], callables := []
        overrides := [("b", .whole (.ofNodes "block:b" [.output 1 ⟨"x", [], []⟩]))] }
    Template.compile "page" source = .ok (.ofNodes "page" nodes) ∧
      (Template.ofNodes "page" nodes).render env = .text "1-2" := by
  intro source nodes env
  have tree : Node.ofSource source.toList = .ok nodes := by cbv
  have compiled : Template.compile "page" source = .ok (.ofNodes "page" nodes) :=
    Template.compile_eq_ok_iff.2 ⟨nodes, tree, rfl⟩
  have means : meaningAll env "page" [] [] 0 "" nodes = .ok "1-2" := by cbv
  obtain ⟨nodes', tree', -, -, -, outcome⟩ := render_of_compile compiled env
  obtain rfl := Except.ok.inj (tree'.symm.trans tree)
  exact ⟨compiled, by rw [outcome, means]; rfl⟩

end BraceTemplate
