/-
# BraceTemplate.Proofs.Render.Insertion — a body as a block of a template and as a source

The body of a block can be registered with the template that it stands in, or as a source text of
its own. The first runs a part of the program of that template, on the lines it has there; the
second runs a program of its own. `render_extend_insertSource`: no render can tell them apart, but
by where errors are reported.

* `exists_block`: nodes that keep their bodies when one is planted in a block have it there;
* `block_withBlock`: a text with a block in it has the tree of the body there, on other lines.
-/
import BraceTemplate.Proofs.Render.Registration
import BraceTemplate.Proofs.Render.Simulation
import BraceTemplate.Proofs.Render.Substitution

namespace BraceTemplate

set_option autoImplicit false

open Text
open Draft (Adds)

/-! ## The block in the tree -/

section

variable {f : String → Option (List Node)} {name : String} {own : List Node}

mutual

theorem Node.exists_block (found : f name = some own) (others : ∀ n, n ≠ name → f n = none) :
    ∀ (node : Node) {start : Nat}, node.plant id f = node →
      name ∈ (node.blocks start).map Prod.fst →
        ∃ position, (name, position, own) ∈ node.blocks start
  | .text _ _, _, _, mem | .output _ _, _, _, mem | .call _ _ _, _, _, mem => by cases mem
  | .ifThen _ _ yes _, _, same, mem => by
      obtain ⟨-, -, inside, -⟩ := Node.ifThen.inj same
      exact exists_block found others yes inside mem
  | .ifElse _ _ yes _ no _, _, same, mem => by
      obtain ⟨-, -, first, -, second, -⟩ := Node.ifElse.inj same
      rw [Node.blocks, List.map_append, List.mem_append] at mem
      rcases mem with mem | mem
      · obtain ⟨position, there⟩ := exists_block found others yes first mem
        exact ⟨position, List.mem_append_left _ there⟩
      · obtain ⟨position, there⟩ := exists_block found others no second mem
        exact ⟨position, List.mem_append_right _ there⟩
  | .loop _ _ _ body _, _, same, mem => by
      obtain ⟨-, -, -, inside, -⟩ := Node.loop.inj same
      exact exists_block found others body inside mem
  | .block _ n body _, start, same, mem => by
      obtain ⟨-, -, inside, -⟩ := Node.block.inj same
      by_cases this : n = name
      · subst this
        rw [found] at inside
        obtain rfl : own = body := inside
        exact ⟨start + 1, List.mem_cons_self⟩
      · rw [others n this] at inside
        rw [Node.blocks, List.map_cons, List.mem_cons] at mem
        obtain ⟨position, there⟩ :=
          exists_block found others body inside (mem.resolve_left (Ne.symm this))
        exact ⟨position, List.mem_cons_of_mem _ there⟩

/-- Nodes that stay the same when a body is planted in one of their blocks have it there. -/
theorem exists_block (found : f name = some own) (others : ∀ n, n ≠ name → f n = none) :
    ∀ (nodes : List Node) {start : Nat}, plantAll id f nodes = nodes →
      name ∈ (blocksAll start nodes).map Prod.fst →
        ∃ position, (name, position, own) ∈ blocksAll start nodes
  | [], _, _, mem => by cases mem
  | node :: rest, _, same, mem => by
      obtain ⟨first, behind⟩ := List.cons.inj same
      rw [blocksAll, List.map_append, List.mem_append] at mem
      rcases mem with mem | mem
      · obtain ⟨position, there⟩ := node.exists_block found others first mem
        exact ⟨position, List.mem_append_left _ there⟩
      · obtain ⟨position, there⟩ := exists_block found others rest behind mem
        exact ⟨position, List.mem_append_right _ there⟩

end

/-- Planting its own body in a block of a draft changes nothing, not even around the block. -/
theorem planted_own {front back : List (Nat × Directive)} {start d : Draft} {line endLine : Nat}
    {names : List String} (found : f name = some own) (begins : Adds Draft.empty front start)
    (unusedFront : ∀ n ∈ openedBlocks front, f n = none)
    (unusedBack : ∀ n ∈ openedBlocks back, f n = none)
    (adds : Adds ⟨.block line name own endLine :: start.body, start.around, names⟩ back d) :
    plantAll id f d.body = d.body := by
  obtain ⟨first, fixed⟩ := begins.plant (f := f) nofun unusedFront id
  have behind := (adds.plant fixed unusedBack id).1
  rw [onLines_id] at first behind
  have start_ : start.plant id f = start := first.unique begins
  have block : (Node.block line name own endLine).plant id f = .block line name own endLine := by
    rw [Node.plant, found]
    rfl
  have body : plantAll id f start.body = start.body := congrArg Draft.body start_
  have around : start.around.map (Enclosing.plant id f) = start.around :=
    congrArg Draft.around start_
  rw [Draft.plant, plantAll, block, body, around] at behind
  exact congrArg Draft.body (behind.unique adds)

end

variable {front name body back : String}

/-- A text with a block in it has the tree of the body there, on other lines. -/
theorem block_withBlock {nodes : List Node} (valid : isName name.toList = true)
    (encloses : Encloses front body)
    (tree : Node.ofSource (withBlock front name body back).toList = .ok nodes) :
    ∃ own g position, Node.ofSource body.toList = .ok own ∧
      (name, position, plantAll g (fun _ => none) own) ∈ blocksAll 0 nodes := by
  obtain ⟨outside, dB, inside, balanced⟩ := encloses
  obtain ⟨⟨dF, first⟩, dQ, last⟩ := consists_around valid outside inside tree
  have names := (consists_withBlock valid first inside last).names_blocksAll tree
  obtain ⟨own, start, _, _, g, d, ownTree, begins, adds, rfl, unusedFront, unusedBack⟩ :=
    exists_drafts valid first inside balanced last tree
  let moved := plantAll (· + front.toList.count '\n') (fun _ => none) own
  let f : String → Option (List Node) := fun n => if n = name then some moved else none
  have found : f name = some moved := if_pos rfl
  have others : ∀ n, n ≠ name → f n = none := fun n ne => if_neg ne
  have otherName : ∀ {ds}, name ∉ openedBlocks ds → ∀ n ∈ openedBlocks ds, f n = none :=
    fun absent n mem => others n fun equal => absent (equal ▸ mem)
  have planted := planted_own found begins (otherName unusedFront) (otherName unusedBack) adds
  have opened : name ∈ (blocksAll 0 d.body.reverse).map Prod.fst := by
    rw [names, openedBlocks_append, openedBlocks]
    exact List.mem_append_right _ List.mem_cons_self
  obtain ⟨position, there⟩ := exists_block found others d.body.reverse
    (by rw [plantAll_reverse, planted]) opened
  exact ⟨own, _, position, ownTree, there⟩

/-! ## Renders -/

/-- Alike results with the same texts, and errors with the same causes. -/
theorem agrees_of_alike {errors : RenderError → RenderError → Prop}
    {r r' : Except RenderError String} (alike : Alike Eq errors r r')
    (causes : ∀ e e', errors e e' → e'.cause = e.cause) :
    (Outcome.ofResult r').Agrees (.ofResult r) := by
  cases alike with
  | @text s s' same =>
      subst same
      exact .text s
  | error related => exact .failed (causes _ _ related)

/-- An override may be replaced by a template of the same nodes on other lines. -/
theorem simulates_insert {overrides : Overrides} {o : Override} (o' : Override) {g : Nat → Nat}
    (found : overrides.find? name = some o) (moved : o.nodes = plantAll g (fun _ => none) o'.nodes)
    (globals : Context) (modifiers : Modifiers) (callables : Callables) :
    Env.Simulates ⟨globals, modifiers, callables, Dict.insert overrides name o'⟩
      ⟨globals, modifiers, callables, overrides⟩ Eq fun e e' => e'.cause = e.cause where
  globals := rfl
  modifiers := rfl
  append := fun same s => by rw [same]
  call := by
    rintro written _ rfl locals name args
    refine Env.call_congr ?_ (fun argument _ => Expr.agrees_of_eq ?_ ?_ argument.2) locals written
    all_goals rfl
  overrides := by
    intro other
    rw [Dict.find?_insert]
    by_cases same : name = other
    · subst same
      rw [if_pos rfl, found]
      exact .some ⟨g, moved, fun e e' moved => moved.cause_eq fun _ _ => id⟩
    · rw [if_neg same]
      exact overrides.movedTo_self (fun _ _ same => same.cause.symm) other

/-- **The two ways of registering a body agree.** Where a template with a block in it compiles, its
body compiles by itself, and adding it as a source text for the block, behind the blocks of the
template, puts a template of the body in place of the block of this name and no other, and changes
no render but for where errors are reported. -/
theorem render_extend_insertSource {title : String} {child : Template}
    (valid : isName name.toList = true) (encloses : Encloses front body)
    (compiled : Template.compile title (withBlock front name body back) = .ok child) :
    (∀ label, ∃ t, Template.compile label body = .ok t) ∧
      ∀ overrides : Overrides, ∃ block own inserted,
        (overrides.extend child).find? name = some block ∧ block.template = child ∧
          Template.compile ("block:" ++ name) body = .ok own ∧
          (overrides.extend child).insertSource name body = .ok inserted ∧
          inserted.find? name = some (.whole own) ∧
          (∀ other, other ≠ name → inserted.find? other = (overrides.extend child).find? other) ∧
          ∀ (layout : Template) (globals : Context) (modifiers : Modifiers)
            (callables : Callables),
              (layout.render ⟨globals, modifiers, callables, overrides.extend child⟩).Agrees
                (layout.render ⟨globals, modifiers, callables, inserted⟩) := by
  obtain ⟨nodes, tree, rfl⟩ := Template.compile_eq_ok_iff.1 compiled
  obtain ⟨own, g, position, ownTree, there⟩ := block_withBlock valid encloses tree
  have compiles : ∀ label, Template.compile label body = .ok (.ofNodes label own) :=
    fun label => Template.compile_eq_ok_iff.2 ⟨own, ownTree, rfl⟩
  refine ⟨fun label => ⟨_, compiles label⟩, ?_⟩
  intro overrides
  let child := Template.ofNodes title nodes
  let o := Override.whole (.ofNodes ("block:" ++ name) own)
  have inserted : (overrides.extend child).insertSource name body =
      .ok (Dict.insert (overrides.extend child) name o) := by
    rw [Overrides.insertSource, compiles]
    rfl
  have once : child.NamesOnce := Template.namesOnce_of_ofSource tree
  have registered := Overrides.find?_extend once there overrides
  refine ⟨_, _, _, registered, rfl, compiles _, inserted, ?_, ?_, ?_⟩
  · rw [Dict.find?_insert, if_pos rfl]
  · intro other ne
    rw [Dict.find?_insert, if_neg (Ne.symm ne)]
  intro layout globals modifiers callables
  have simulates := simulates_insert o registered rfl globals modifiers callables
  have alike := meaningAll_alike simulates layout.nodes layout.name layout.name [] [] 0 0 id
    (rfl : "" = "")
  rw [plantAll_id] at alike
  rw [render_eq_meaning, render_eq_meaning]
  apply agrees_of_alike alike
  intro e e' moved
  exact moved.cause_eq fun _ _ => id

set_option maxRecDepth 2000 in
/-- A body with a block in it, from the middle of a loop on the second line of a template. -/
theorem render_extend_insertSource_nested :
    let front := "\x7b%for x xs%\x7d\n"
    let body := "\x7b%block c%\x7d\x7b$x\x7d\x7b%endblock%\x7d\n"
    let back := "\x7b%endfor%\x7d"
    let child := Template.ofNodes "page" [.loop 1 "x" ⟨"xs", [], []⟩ [.text 1 "\n",
      .block 2 "b" [.block 2 "c" [.output 2 ⟨"x", [], []⟩] 2, .text 2 "\n"] 3] 3]
    let layout := Template.ofNodes "layout" [.loop 1 "x" ⟨"ys", [], []⟩
      [.text 1 "-", .block 1 "b" [] 1] 1]
    let globals := Context.ofEntries [("ys", .list [.int 1, .int 2])]
    isName "b".toList = true ∧ Encloses front body ∧
      Template.compile "page" (withBlock front "b" body back) = .ok child ∧
      layout.render ⟨globals, [], [], Overrides.extend [] child⟩ = .text "-1\n-2\n" ∧
      ∃ own inserted, Template.compile "block:b" body = .ok own ∧
        (Overrides.extend [] child).insertSource "b" body = .ok inserted ∧
        inserted.find? "b" = some (.whole own) ∧
        ∀ modifiers callables,
          (layout.render ⟨globals, modifiers, callables, Overrides.extend [] child⟩).Agrees
            (layout.render ⟨globals, modifiers, callables, inserted⟩) := by
  intro front body back child layout globals
  have valid : isName "b".toList = true := by decide
  have outside : Outside front.toList := by
    have chars : front.toList = '{' :: ("%for x xs%".toList ++ '}' :: ([] ++ '\n' :: [])) := by
      decide
    rw [chars]
    exact ⟨_, .braces (by decide) (by decide) (.lineEnd (by decide) (by decide) (.done 2))⟩
  have encloses : Encloses front body := by
    have tree : Node.ofSource body.toList =
        .ok [.block 1 "c" [.output 1 ⟨"x", [], []⟩] 1, .text 1 "\n"] := by cbv
    exact .of_ofSource outside tree
  have compiled : Template.compile "page" (withBlock front "b" body back) = .ok child :=
    Template.compile_eq_ok_iff.2 ⟨_, by cbv, rfl⟩
  have text : layout.render ⟨globals, [], [], Overrides.extend [] child⟩ = .text "-1\n-2\n" :=
    render_eq_text_iff.2 (by cbv)
  obtain ⟨-, registered⟩ := render_extend_insertSource valid encloses compiled
  obtain ⟨_, own, inserted, -, -, alone, added, found, -, agrees⟩ := registered []
  exact ⟨valid, encloses, compiled, text, own, inserted, alone, added, found,
    agrees layout globals⟩

end BraceTemplate
