/-
# BraceTemplate.Proofs.Render.Registration — overrides that templates bring along

`Overrides.extend` adds the body of every block of a template as an override. In a template that
was compiled, blocks have distinct names, so each body is found under the name of its block
(`Overrides.find?_extend`).

* `meaning_of_registered`: where the override of every block is the block itself, nodes mean what
  they mean without overrides, failures and their places included.
-/
import BraceTemplate.Proofs.Program.WellFormed
import BraceTemplate.Proofs.Render.Meaning
import BraceTemplate.Proofs.Render.Sense
import BraceTemplate.Proofs.Source.Enclosed

namespace BraceTemplate

set_option autoImplicit false

/-! ## What is registered -/

/-- The blocks of a template have distinct names. -/
def Template.NamesOnce (t : Template) : Prop :=
  ((blocksAll 0 t.nodes).map Prod.fst).Nodup

theorem Template.namesOnce_of_ofSource {name : String} {source : List Char} {nodes : List Node}
    (tree : Node.ofSource source = .ok nodes) : (Template.ofNodes name nodes).NamesOnce := by
  have distinct := (tidy_of_ofSource tree).2
  rwa [← names_blocksAll nodes 0] at distinct

/-- A template has the blocks of its tree. -/
theorem Template.hasBlock_of_mem {t : Template} (once : t.NamesOnce) {name : String}
    (mem : name ∈ (blocksAll 0 t.nodes).map Prod.fst) : t.hasBlock name = true := by
  obtain ⟨⟨_, start, body⟩, there, rfl⟩ := List.mem_map.1 mem
  have names : ((blocksAll 0 t.nodes).map blockRange).map Prod.fst =
      (blocksAll 0 t.nodes).map Prod.fst := List.map_map
  rw [NamesOnce, ← names] at once
  have found := Dict.find?_foldl_insert once (List.mem_map_of_mem there) []
  rw [hasBlock, Dict.contains, t.program_eq]
  exact congrArg Option.isSome found

/-- The blocks in the tree of a source text have the names that its directives give them. -/
theorem Consists.names_blocksAll {source : List Char} {ds : List (Nat × Directive)}
    {nodes : List Node} (consists : Consists source ds) (tree : Node.ofSource source = .ok nodes) :
    (blocksAll 0 nodes).map Prod.fst = openedBlocks ds := by
  obtain ⟨pieces, whole, reads⟩ := consists
  obtain ⟨pieces', ds', whole', reads', -, same⟩ := directivesAll_of_ofSource tree
  obtain rfl : pieces = pieces' := whole.sections_eq.symm.trans whole'.sections_eq
  obtain rfl := reads.unique reads'
  rw [BraceTemplate.names_blocksAll, same, openedBlocks_joined]

/-- The body of every block of a template is found under the name of the block. -/
theorem Overrides.find?_extend {t : Template} (once : t.NamesOnce) {name : String} {start : Nat}
    {body : List Node} (mem : (name, start, body) ∈ blocksAll 0 t.nodes) (overrides : Overrides) :
    (overrides.extend t).find? name = some ⟨t, start, body, .inr ⟨name, mem⟩⟩ := by
  have names : (Override.ofBlocks t).map Prod.fst = (blocksAll 0 t.nodes).map Prod.fst := by
    rw [Override.ofBlocks, List.map_map]
    exact List.attach_map_val (f := Prod.fst)
  apply Dict.find?_foldl_insert
  · rw [names]
    exact once
  · rw [Override.ofBlocks, List.mem_map]
    exact ⟨⟨_, mem⟩, List.mem_attach _ _, rfl⟩

/-! ## Blocks that replace themselves -/

/-- The override of every block of a template is the body of the block. -/
def Env.Registers (env : Env) (t : Template) : Prop :=
  ∀ name start body, (name, start, body) ∈ blocksAll 0 t.nodes →
    ∃ part, env.overrides.find? name = some ⟨t, start, body, part⟩

section

variable {t : Template} {env : Env}

mutual

theorem Node.meaning_of_registered (registers : env.Registers t) :
    ∀ (node : Node) {start : Nat}, node.blocks start ⊆ blocksAll 0 t.nodes →
      ∀ (active : List String) (locals : Dict Value) (before : String),
        node.meaning env t.name active locals start before =
          node.meaning env.plain t.name [] locals start before
  | .text _ _, _, _, _, _, _ => by rw [Node.meaning, Node.meaning]
  | .output _ _, _, _, _, _, _ => by rw [Node.meaning, Node.meaning, Env.output_plain]
  | .call _ _ _, _, _, _, _, _ => by rw [Node.meaning, Node.meaning, Env.call_plain]
  | .ifThen _ _ yes _, _, own, active, locals, before => by
      rw [Node.meaning, Node.meaning, Env.holds_plain,
        meaning_of_registered registers yes own active]
  | .ifElse _ _ yes _ no _, _, own, active, locals, before => by
      rw [Node.blocks, List.append_subset] at own
      rw [Node.meaning, Node.meaning, Env.holds_plain,
        meaning_of_registered registers yes own.1 active,
        meaning_of_registered registers no own.2 active]
  | .loop _ _ _ body _, _, own, active, locals, before => by
      rw [Node.meaning, Node.meaning, Env.items_plain]
      simp only [meaning_of_registered registers body own active]
  | .block _ name body _, start, own, active, locals, before => by
      rw [Node.blocks, List.cons_subset] at own
      have inside := meaning_of_registered registers body own.2
      have plain : env.plain.override? [] name = none := ite_self _
      rw [Node.meaning_block_of_none plain]
      cases chosen : env.override? active name with
      | none =>
          rw [Node.meaning_block_of_none chosen]
          exact inside active locals before
      | some o =>
          -- The override is the block itself, run where it stands.
          obtain ⟨part, registered⟩ := registers name (start + 1) body own.1
          have found := (Env.override?_eq_some.1 chosen).2
          obtain rfl := Option.some.inj (registered.symm.trans found)
          rw [Node.meaning_block_of_some chosen]
          exact inside (name :: active) locals before

theorem meaning_of_registered (registers : env.Registers t) :
    ∀ (nodes : List Node) {start : Nat}, blocksAll start nodes ⊆ blocksAll 0 t.nodes →
      ∀ (active : List String) (locals : Dict Value) (before : String),
        meaningAll env t.name active locals start before nodes =
          meaningAll env.plain t.name [] locals start before nodes
  | [], _, _, _, _, _ => by rw [meaningAll, meaningAll]
  | node :: rest, _, own, active, locals, before => by
      rw [blocksAll, List.append_subset] at own
      rw [meaningAll, meaningAll, node.meaning_of_registered registers own.1 active]
      simp only [meaning_of_registered registers rest own.2 active]

end

end

/-- **A template that overrides its own blocks renders as without overrides**: to the same text, or
to the same error at the same operation. -/
theorem render_extend_self {name source : String} {t : Template}
    (compiled : Template.compile name source = .ok t) (globals : Context) (modifiers : Modifiers)
    (callables : Callables) :
    t.render ⟨globals, modifiers, callables, Overrides.extend [] t⟩ =
      t.render ⟨globals, modifiers, callables, []⟩ := by
  obtain ⟨nodes, tree, rfl⟩ := Template.compile_eq_ok_iff.1 compiled
  let t := Template.ofNodes name nodes
  let env : Env := ⟨globals, modifiers, callables, Overrides.extend [] t⟩
  have once : t.NamesOnce := Template.namesOnce_of_ofSource tree
  have registers : env.Registers t := by
    intro name start body mem
    exact ⟨_, Overrides.find?_extend once mem []⟩
  have means : t.meaning env = t.meaning env.plain :=
    meaning_of_registered registers nodes (List.Subset.refl _) [] [] ""
  rw [render_eq_meaning, render_eq_meaning]
  exact congrArg Outcome.ofResult means

set_option maxRecDepth 2000 in
/-- Blocks in each other and in a loop, the innermost of which fails for the second item. -/
theorem render_extend_self_nested :
    let source := "\x7b%block a%\x7d\x7b%for x xs%\x7d\n" ++
      "\x7b%block b%\x7d\x7b$x.k\x7d\x7b%endblock%\x7d\x7b%endfor%\x7d\x7b%endblock%\x7d"
    let t := Template.ofNodes "page" [.block 1 "a" [.loop 1 "x" ⟨"xs", [], []⟩
      [.text 1 "\n", .block 2 "b" [.output 2 ⟨"x", [.key "k"], []⟩] 2] 2] 2]
    let globals := Context.ofEntries [("xs", .list [.map [("k", .int 1)], .int 2])]
    let error : RenderError := ⟨"page", 4, 2, .unresolvableStep "x.k" ".k"⟩
    Template.compile "page" source = .ok t ∧
      t.render ⟨globals, [], [], []⟩ = .failed error ∧
      t.render ⟨globals, [], [], Overrides.extend [] t⟩ = t.render ⟨globals, [], [], []⟩ := by
  intro source t globals error
  have compiled : Template.compile "page" source = .ok t :=
    Template.compile_eq_ok_iff.2 ⟨_, by cbv, rfl⟩
  have fails : t.render ⟨globals, [], [], []⟩ = .failed error := render_eq_failed_iff.2 (by cbv)
  exact ⟨compiled, fails, render_extend_self compiled globals [] []⟩

end BraceTemplate
