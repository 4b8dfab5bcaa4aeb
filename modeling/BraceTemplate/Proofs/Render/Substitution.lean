/-
# BraceTemplate.Proofs.Render.Substitution — overriding a block is replacing its body

A template whose block is overridden renders as the template that has the other body written in its
place, up to where errors are reported.

* `Adds.through_block`: what a draft makes of directives with a block among them;
* `exists_own`: the directives of a body have a tree by themselves, the same on other lines;
* `planted_withBlock`: planting the tree of the other body in the block makes the tree of the text
  with this body.
-/
import BraceTemplate.Proofs.Render.Meaning
import BraceTemplate.Proofs.Render.Sense
import BraceTemplate.Proofs.Source.Enclosed

namespace BraceTemplate

set_option autoImplicit false

open Text
open Draft (Adds)

/-! ## The tree of a text with a block in it -/

/-- What a draft makes of directives with a block among them: the nodes in front of the block, those
in it, which do not depend on what stands around it, and those behind it. -/
theorem Draft.Adds.through_block {d : Draft} {front inside back : List (Nat × Directive)}
    {name : String} {line endLine : Nat} (balanced : Balanced inside)
    (adds : Adds Draft.empty
      (front ++ (line, .openBlock name) :: (inside ++ (endLine, .closeBlock "") :: back)) d) :
    ∃ first body names, Adds Draft.empty front first ∧
      Adds ⟨[], [], name :: first.names⟩ inside ⟨body, [], names⟩ ∧
      Adds ⟨.block line name body.reverse endLine :: first.body, first.around, names⟩ back d := by
  obtain ⟨first, one, adds⟩ := adds.split
  cases adds with
  | next opened adds =>
      obtain ⟨-, rfl⟩ := Draft.eq_of_openBlock opened
      obtain ⟨last, two, adds⟩ := adds.split
      have begins : ({ first.begin line (.block name) with names := name :: first.names } :
          Draft).around = [] ++ ⟨.block name, line, first.body⟩ :: first.around := rfl
      obtain ⟨inner, open_, level, alone⟩ := two.inside rfl begins balanced
      obtain rfl := List.eq_nil_of_length_eq_zero level
      cases adds with
      | next closed adds =>
          obtain ⟨name', line', before, around, open', -, rfl⟩ := Draft.eq_of_closeBlock closed
          obtain ⟨same, rfl⟩ := List.cons.inj (open_.symm.trans open')
          obtain ⟨⟨⟩, rfl, rfl⟩ := Enclosing.mk.inj same
          exact ⟨first, last.body, last.names, one, alone, adds⟩

/-- The name of a block is not that of another block of the same source. -/
theorem Draft.Adds.name_once {d : Draft} {front inside back : List (Nat × Directive)}
    {name label : String} {line endLine : Nat}
    (adds : Adds Draft.empty
      (front ++ (line, .openBlock name) :: (inside ++ (endLine, .closeBlock label) :: back)) d) :
    name ∉ openedBlocks front ∧ name ∉ openedBlocks back := by
  have distinct := adds.from_empty.2
  simp only [openedBlocks_append, openedBlocks] at distinct
  obtain ⟨-, others, apart⟩ := List.nodup_append.1 distinct
  refine ⟨fun mem => apart name mem name List.mem_cons_self rfl, fun mem => ?_⟩
  exact (List.nodup_cons.1 others).1 (List.mem_append_right _ mem)

/-- The directives of a body have a tree by themselves, the same on other lines. -/
theorem exists_own {ds : List (Nat × Directive)} {names names' : List String} {body : List Node}
    (distinct : names.Nodup) (k : Nat)
    (adds : Adds ⟨[], [], names⟩ (onLines (· + k) ds) ⟨body, [], names'⟩) :
    ∃ own names, Adds Draft.empty ds ⟨own, [], names⟩ ∧
      body = plantAll (· + k) (fun _ => none) own := by
  have noBlock : Draft.Fixed (fun _ => none) ⟨[], [], names⟩ := nofun
  have noBody : ∀ name ∈ openedBlocks (onLines (· + k) ds),
      (fun _ => none : String → Option (List Node)) name = none := fun _ _ => rfl
  -- Back on its own lines, the row is one of whole items: nothing was open in front of it.
  have back := (adds.plant noBlock noBody (· - k)).1
  rw [onLines_add_sub] at back
  have within := back.within (.outside .done)
  rw [List.nil_append] at within
  cases within with
  | outside items =>
      obtain ⟨all, distinct⟩ := back.names distinct
      rw [all] at distinct
      have once : (openedBlocks ds).Nodup :=
        List.nodup_reverse.1 (List.nodup_append.1 distinct).1
      obtain ⟨own, taken⟩ := items.taken once
      have alone := taken Draft.empty nofun
      have moved := (alone.plant (f := fun _ => none) nofun (fun _ _ => rfl) (· + k)).1
      exact ⟨_, _, alone, (adds.same_tree moved rfl rfl).1⟩

/-- What a block that is planted becomes. -/
theorem plant_block {f : String → Option (List Node)} {name : String} {own : List Node}
    (found : f name = some own) (line endLine : Nat) (body : List Node) :
    (Node.block line name body endLine).plant (fun _ => 0) f = .block 0 name own 0 := by
  rw [Node.plant, found]
  rfl

/-- Planting drafts with different bodies in a block makes the same nodes of the directives behind
the block, if the planted bodies are the same. -/
theorem planted_behind {f : String → Option (List Node)} {name : String}
    {front back back' : List (Nat × Directive)} {start d d' : Draft} {line endLine endLine' : Nat}
    {body body' : List Node} {names names' : List String} (found : f name = some (bareAll body'))
    (begins : Adds Draft.empty front start) (unusedFront : ∀ n ∈ openedBlocks front, f n = none)
    (unusedBack : ∀ n ∈ openedBlocks back, f n = none)
    (sameBack : onLines (fun _ => 0) back = onLines (fun _ => 0) back')
    (adds : Adds ⟨.block line name body endLine :: start.body, start.around, names⟩ back d)
    (adds' : Adds ⟨.block line name body' endLine' :: start.body, start.around, names'⟩ back' d') :
    plantAll (fun _ => 0) f d.body = bareAll d'.body := by
  obtain ⟨first, fixed⟩ := begins.plant (f := f) nofun unusedFront fun _ => 0
  obtain ⟨first', fixed'⟩ := begins.plant (f := fun _ => none) nofun (fun _ _ => rfl) fun _ => 0
  have start_ := first.unique first'
  have behind := (adds.plant fixed unusedBack fun _ => 0).1
  have behind' := (adds'.plant (f := fun _ => none) fixed' (fun _ _ => rfl) fun _ => 0).1
  rw [sameBack] at behind
  have startAround := congrArg Draft.around start_
  refine (behind.same_tree behind' ?_ startAround).1
  have block := plant_block found line endLine body
  have block' : (Node.block line name body' endLine').plant (fun _ => 0) (fun _ => none) =
      .block 0 name (bareAll body') 0 := rfl
  simp only [Draft.plant, plantAll, block, block']
  exact congrArg (_ :: ·) (congrArg Draft.body start_)

variable {front name body other back : String} {nodes nodes' : List Node}

/-- The tree of a text with a block in it, as it is written: a draft of what stands in front, then
the block, with the tree of the body by itself on other lines, then what stands behind. -/
theorem exists_drafts {dF dB dQ : List (Nat × Directive)} (valid : isName name.toList = true)
    (first : Consists front.toList dF) (inside : Consists body.toList dB)
    (balanced : Balanced dB) (last : Consists back.toList dQ)
    (tree : Node.ofSource (withBlock front name body back).toList = .ok nodes) :
    let k := front.toList.count '\n'
    ∃ own start endLine names g d, Node.ofSource body.toList = .ok own ∧
      Adds Draft.empty dF start ∧
      Adds ⟨.block (1 + k) name (plantAll (· + k) (fun _ => none) own) endLine :: start.body,
        start.around, names⟩ (onLines g dQ) d ∧
      nodes = d.body.reverse ∧ name ∉ openedBlocks dF ∧ name ∉ openedBlocks (onLines g dQ) := by
  intro k
  have row := consists_withBlock valid first inside last
  obtain ⟨d, adds, -, rfl⟩ := row.ofSource_eq_ok_iff.1 tree
  rw [onLines_append, onLines_cons, onLines_onLines] at adds
  obtain ⟨unusedFront, unusedBack⟩ := adds.name_once
  obtain ⟨start, bodyT, namesT, begins, within, behind⟩ :=
    adds.through_block ((depthBehind_onLines _ 0 dB).trans balanced)
  obtain ⟨names, distinct⟩ := begins.names List.nodup_nil
  have unused : name ∉ start.names := by
    rw [names]
    simpa [Draft.empty] using unusedFront
  obtain ⟨own, _, alone, rfl⟩ := exists_own (List.nodup_cons.2 ⟨unused, distinct⟩) _ within
  rw [← plantAll_reverse] at behind
  exact ⟨own.reverse, start, _, _, _, d, inside.ofSource_eq_ok_iff.2 ⟨_, alone, rfl, rfl⟩,
    begins, behind, rfl, unusedFront, unusedBack⟩

/-- The tree of a text with a block in it, when the block is given another body, is the tree of the
text with that body, lines aside. -/
theorem planted_withBlock (valid : isName name.toList = true) (encloses : Encloses front body)
    (encloses' : Encloses front other)
    (tree : Node.ofSource (withBlock front name body back).toList = .ok nodes)
    (tree' : Node.ofSource (withBlock front name other back).toList = .ok nodes') :
    ∃ own, Node.ofSource other.toList = .ok own ∧
      ∀ f : String → Option (List Node), f name = some (bareAll own) →
        (∀ n, n ≠ name → f n = none) → plantAll (fun _ => 0) f nodes = bareAll nodes' := by
  obtain ⟨outside, dB, inside, balanced⟩ := encloses
  obtain ⟨-, dS, inside', balanced'⟩ := encloses'
  obtain ⟨⟨dF, first⟩, dQ, last⟩ := consists_around valid outside inside tree
  obtain ⟨_, start, _, _, g, d, -, begins, adds, rfl, unusedFront, unusedBack⟩ :=
    exists_drafts valid first inside balanced last tree
  obtain ⟨own, start', _, _, g', d', ownTree, begins', adds', rfl, -, -⟩ :=
    exists_drafts valid first inside' balanced' last tree'
  -- The front is one text on the same lines, so both runs reach one draft in front of the block.
  obtain rfl := begins.unique begins'
  refine ⟨own, ownTree, fun f found others => ?_⟩
  have otherName : ∀ {ds}, name ∉ openedBlocks ds → ∀ n ∈ openedBlocks ds, f n = none :=
    fun absent n mem => others n fun equal => absent (equal ▸ mem)
  have sameBack : onLines (fun _ => 0) (onLines g dQ) = onLines (fun _ => 0) (onLines g' dQ) := by
    rw [onLines_const, onLines_const]
  rw [← bareAll_plantAll (· + front.toList.count '\n')] at found
  have planted := planted_behind found begins (otherName unusedFront) (otherName unusedBack)
    sameBack adds adds'
  rw [plantAll_reverse, planted, bareAll_reverse]

/-! ## Overriding a block -/

/-- The same text, or failures for the same cause. -/
inductive Outcome.Agrees : Outcome → Outcome → Prop where
  | text (s : String) : Agrees (.text s) (.text s)
  | failed {e e' : RenderError} (same : e.cause = e'.cause) : Agrees (.failed e) (.failed e')

theorem agrees_of_mapError {a b : Except RenderError String}
    (same : a.mapError RenderError.cause = b.mapError RenderError.cause) :
    (Outcome.ofResult a).Agrees (.ofResult b) := by
  cases a with
  | ok s =>
      cases b with
      | ok s' =>
          obtain rfl : s = s' := Except.ok.inj same
          exact .text s
      | error => cases same
  | error e =>
      cases b with
      | ok => cases same
      | error e' => exact .failed (Except.error.inj same)

/-- What a template means without overrides is what its tree says without its lines. -/
theorem meaning_of_no_overrides (t : Template) {env : Env} (none : env.overrides = []) :
    (t.meaning env).mapError RenderError.cause =
      senseAll env.plain [] "" (bareAll t.nodes) := by
  have noOverride : ∀ name, env.override? [] name = .none := by
    intro name
    rw [Env.override?, none]
    rfl
  have sense := meaning_eq_senseAll (.of_none noOverride) t.nodes t.name [] 0 "" fun _ => 0
  rwa [Env.bodies_of_none noOverride] at sense

/-- What a template means with one override is what its tree says with the body planted in it. -/
theorem meaning_of_override (t : Template) {env : Env} {name : String} {o : Override}
    (one : env.overrides = Dict.insert [] name o) :
    ∃ f : String → Option (List Node), f name = some (bareAll o.nodes) ∧
      (∀ other, other ≠ name → f other = none) ∧
      (t.meaning env).mapError RenderError.cause =
        senseAll env.plain [] "" (plantAll (fun _ => 0) f t.nodes) := by
  have found : ∀ active other, env.override? active other =
      if other ∈ active then none else if name = other then some o else none := by
    intro active other
    rw [Env.override?, one, Dict.find?_insert]
    rfl
  -- While the only override is run, its block is active and all others have none.
  have single : env.Single [] := by
    intro n o' first other
    rw [found] at first
    rw [found]
    by_cases same : name = n
    · by_cases again : name = other
      · rw [if_pos (by rw [← same, ← again]; exact List.mem_cons_self)]
      · rw [if_neg again, ite_self]
    · rw [if_neg same, ite_self] at first
      cases first
  refine ⟨env.bodies [], ?_, fun other ne => ?_, meaning_eq_senseAll single ..⟩
  · rw [Env.bodies, found, if_neg List.not_mem_nil, if_pos rfl]
    rfl
  · rw [Env.bodies, found, if_neg List.not_mem_nil, if_neg (Ne.symm ne)]
    rfl

/-- **Overriding a block is writing another body in its place.** Whatever stands around the block,
the template with the override renders as the text with the other body, or both fail for the same
cause. -/
theorem render_override {title title' : String} {t t' : Template}
    (valid : isName name.toList = true) (encloses : Encloses front body)
    (encloses' : Encloses front other)
    (compiled : Template.compile title (withBlock front name body back) = .ok t)
    (compiled' : Template.compile title' (withBlock front name other back) = .ok t') :
    ∃ overrides, Overrides.insertSource [] name other = .ok overrides ∧
      ∀ (globals : Context) (modifiers : Modifiers) (callables : Callables),
        (t.render ⟨globals, modifiers, callables, overrides⟩).Agrees
          (t'.render ⟨globals, modifiers, callables, []⟩) := by
  obtain ⟨nodes, tree, rfl⟩ := Template.compile_eq_ok_iff.1 compiled
  obtain ⟨nodes', tree', rfl⟩ := Template.compile_eq_ok_iff.1 compiled'
  obtain ⟨own, ownTree, planted⟩ := planted_withBlock valid encloses encloses' tree tree'
  let overrides : Overrides := Dict.insert [] name (.whole (.ofNodes ("block:" ++ name) own))
  have inserted : Overrides.insertSource [] name other = .ok overrides := by
    rw [Overrides.insertSource, Template.compile_eq_ok_iff.2 ⟨own, ownTree, rfl⟩]
    rfl
  refine ⟨overrides, inserted, fun globals modifiers callables => ?_⟩
  rw [render_eq_meaning, render_eq_meaning]
  refine agrees_of_mapError ?_
  let plain : Env := ⟨globals, modifiers, callables, []⟩
  let overriding : Env := ⟨globals, modifiers, callables, overrides⟩
  obtain ⟨f, found, others, means⟩ :=
    meaning_of_override (.ofNodes title nodes) (rfl : overriding.overrides = overrides)
  have means' := meaning_of_no_overrides (.ofNodes title' nodes') (rfl : plain.overrides = [])
  calc
    _ = senseAll plain [] "" (plantAll (fun _ => 0) f nodes) := means
    _ = senseAll plain [] "" (bareAll nodes') := congrArg _ (planted f found others)
    _ = _ := means'.symm

/-- The override of a block in a loop that reads the item of the loop. -/
theorem render_override_loop :
    let front := "\x7b%for x xs%\x7d"
    let other := "\x7b$x\x7d\n"
    let back := "\x7b%endfor%\x7d."
    let t := Template.ofNodes "page" [.loop 1 "x" ⟨"xs", [], []⟩
      [.block 1 "b" [.text 1 "old"] 1] 1, .text 1 "."]
    let t' := Template.ofNodes "page" [.loop 1 "x" ⟨"xs", [], []⟩
      [.block 1 "b" [.output 1 ⟨"x", [], []⟩, .text 1 "\n"] 2] 2, .text 2 "."]
    let globals := Context.ofEntries [("xs", .list [.int 1, .int 2])]
    isName "b".toList = true ∧ Encloses front "old" ∧ Encloses front other ∧
      Template.compile "page" (withBlock front "b" "old" back) = .ok t ∧
      Template.compile "page" (withBlock front "b" other back) = .ok t' ∧
      t'.render ⟨globals, [], [], []⟩ = .text "1\n2\n." ∧
      ∃ overrides, Overrides.insertSource [] "b" other = .ok overrides ∧
        ∀ modifiers callables, (t.render ⟨globals, modifiers, callables, overrides⟩).Agrees
          (t'.render ⟨globals, modifiers, callables, []⟩) := by
  intro front other back t t' globals
  have valid : isName "b".toList = true := by decide
  have outside : Outside front.toList := by
    have chars : front.toList = '{' :: ("%for x xs%".toList ++ '}' :: []) := by decide
    rw [chars]
    exact ⟨_, .braces (by decide) (by decide) (.done 1)⟩
  have encloses : Encloses front "old" := by
    have tree : Node.ofSource "old".toList = .ok [.text 1 "old"] := by cbv
    exact .of_ofSource outside tree
  have encloses' : Encloses front other := by
    have tree : Node.ofSource other.toList = .ok [.output 1 ⟨"x", [], []⟩, .text 1 "\n"] := by cbv
    exact .of_ofSource outside tree
  have compiled : Template.compile "page" (withBlock front "b" "old" back) = .ok t :=
    Template.compile_eq_ok_iff.2 ⟨_, by cbv, rfl⟩
  have compiled' : Template.compile "page" (withBlock front "b" other back) = .ok t' :=
    Template.compile_eq_ok_iff.2 ⟨_, by cbv, rfl⟩
  have text : t'.meaning ⟨globals, [], [], []⟩ = .ok "1\n2\n." := by cbv
  obtain ⟨overrides, inserted, agrees⟩ :=
    render_override valid encloses encloses' compiled compiled'
  exact ⟨valid, encloses, encloses', compiled, compiled', by rw [render_eq_meaning, text]; rfl,
    overrides, inserted, agrees globals⟩

/-- A body that closes the block early and opens another one is no template by itself, although the
text with it in place compiles. -/
theorem insertSource_unbalanced :
    let other := "\x7b%endblock%\x7d\x7b%block c%\x7d"
    (∃ t, Template.compile "page" (withBlock "" "b" "x" "") = .ok t) ∧ Encloses "" "x" ∧
      (∃ t, Template.compile "page" (withBlock "" "b" other "") = .ok t) ∧
      ∀ overrides, Overrides.insertSource [] "b" other ≠ .ok overrides := by
  intro other
  have tree : Node.ofSource (withBlock "" "b" "x" "").toList =
      .ok [.block 1 "b" [.text 1 "x"] 1] := by cbv
  have tree' : Node.ofSource (withBlock "" "b" other "").toList =
      .ok [.block 1 "b" [] 1, .block 1 "c" [] 1] := by cbv
  have refused : Template.compile ("block:" ++ "b") other =
      .error ⟨"block:b", 1, .closesNothing .block⟩ :=
    Template.compile_eq_error_iff.2 ⟨by decide, by cbv⟩
  have encloses : Encloses "" "x" := by
    have alone : Node.ofSource "x".toList = .ok [.text 1 "x"] := by cbv
    exact .of_ofSource ⟨_, .done 1⟩ alone
  refine ⟨⟨_, Template.compile_eq_ok_iff.2 ⟨_, tree, rfl⟩⟩, encloses,
    ⟨_, Template.compile_eq_ok_iff.2 ⟨_, tree', rfl⟩⟩, fun overrides same => ?_⟩
  rw [Overrides.insertSource, refused] at same
  cases same

end BraceTemplate
