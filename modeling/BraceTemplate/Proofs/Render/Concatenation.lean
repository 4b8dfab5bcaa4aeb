/-
# BraceTemplate.Proofs.Render.Concatenation — rendering one source text behind another

A template written behind another renders to the text of the first with that of the second behind
it. Nothing of the first is left that the second could see but the text so far, which only callables
read; where these do not (`Env.Steady`), rendering takes source texts written one behind the other
to texts one behind the other, and errors to the lines they have there (`render_append`).

* `meaningAll_onto`: nodes behind other ones, when texts between them become one;
* `Moved.of_all_names`: where an error was moved to follows from whose operation it is.
-/
import BraceTemplate.Proofs.Render.Nesting
import BraceTemplate.Proofs.Render.Origin
import BraceTemplate.Proofs.Render.Registration
import BraceTemplate.Proofs.Render.Simulation
import BraceTemplate.Proofs.Source.Joining

namespace BraceTemplate

set_option autoImplicit false

/-- What a callable appends, or how it fails, does not depend on the output so far. -/
def Env.Steady (env : Env) : Prop :=
  ∀ name callable, env.callables.find? name = some callable →
    ∀ (arguments : Dict Value) (written written' : String),
      callable arguments written = callable arguments written'

open RenderError (SamePlace)

/-! ## Behind another text -/

namespace Env

variable (env : Env)

theorem simulates_self : env.Simulates env Eq SamePlace where
  globals := rfl
  modifiers := rfl
  append := fun same s => by rw [same]
  call := by
    rintro written _ rfl locals name args
    rfl
  overrides := env.overrides.movedTo_self fun _ _ => id

variable {env}

theorem Steady.call_eq (steady : env.Steady) (locals : Dict Value) (written written' name : String)
    (args : List (String × Expr)) :
    env.call locals written name args = env.call locals written' name args := by
  rw [call, call]
  cases found : env.callables.find? name with
  | none => rfl
  | some callable =>
      cases env.arguments locals [] args with
      | error cause => rfl
      | ok values => simp only [steady name callable found values written written']

/-- Where callables do not read the output so far, nodes do the same behind any text. -/
theorem Steady.simulates (steady : env.Steady) (front : String) :
    env.Simulates env (fun s s' => s' = front ++ s) SamePlace where
  globals := rfl
  modifiers := rfl
  append := by
    rintro written _ rfl s
    exact String.append_assoc
  call := fun _ locals name args => steady.call_eq locals _ _ name args
  overrides := env.overrides.movedTo_self fun _ _ => id

end Env

/-! ## Nodes behind other nodes -/

section

variable (env : Env) (template : String) (active : List String) (locals : Dict Value)

theorem meaningAll_append (nodes more : List Node) (start : Nat) (before : String) :
    meaningAll env template active locals start before (nodes ++ more) =
      meaningAll env template active locals start before nodes >>= fun text =>
        meaningAll env template active locals (start + sizes nodes) text more := by
  induction nodes generalizing start before with
  | nil =>
      rw [meaningAll]
      rfl
  | cons node rest ih =>
      rw [List.cons_append, meaningAll, meaningAll, sizes, ← Nat.add_assoc]
      cases node.meaning env template active locals start before with
      | error e => rfl
      | ok text => exact ih _ text

theorem meaningAll_single (node : Node) (start : Nat) (before : String) :
    meaningAll env template active locals start before [node] =
      node.meaning env template active locals start before := by
  rw [meaningAll]
  cases node.meaning env template active locals start before with
  | error e => rfl
  | ok text => simp only [meaningAll]

/-- A node behind other ones leads on from where they lead, also if it becomes part of a text in
front of it. -/
theorem meaningAll_addNode (node : Node) (nodes : List Node) (start : Nat) (before : String) :
    ∃ position, meaningAll env template active locals start before (addNode node nodes).reverse =
      meaningAll env template active locals start before nodes.reverse >>= fun text =>
        node.meaning env template active locals position text := by
  have apart : ∃ position, meaningAll env template active locals start before
      (node :: nodes).reverse =
        meaningAll env template active locals start before nodes.reverse >>= fun text =>
          node.meaning env template active locals position text := by
    refine ⟨start + sizes nodes.reverse, ?_⟩
    rw [List.reverse_cons, meaningAll_append]
    simp only [meaningAll_single]
  cases node with
  | text line s =>
      cases nodes with
      | nil => exact apart
      | cons last nodes =>
          cases last with
          | text first said =>
              refine ⟨0, ?_⟩
              simp only [addNode, List.reverse_cons, meaningAll_append, meaningAll_single,
                bind_assoc]
              congr 1
              funext text
              simp only [Node.meaning, ← String.append_assoc]
              rfl
          | _ => exact apart
  | _ => exact apart

/-- Nodes behind other ones lead to what the latter lead to, and from there to what they lead to
themselves, wherever they are placed. -/
theorem meaningAll_onto (front back : List Node) (start start' : Nat) (before : String) :
    Alike Eq SamePlace
      (meaningAll env template active locals start before front.reverse >>= fun text =>
        meaningAll env template active locals start' text back.reverse)
      (meaningAll env template active locals start before (onto front back).reverse) := by
  induction back with
  | nil =>
      simp only [List.reverse_nil, meaningAll, onto, List.foldr_nil]
      cases meaningAll env template active locals start before front.reverse with
      | ok text => exact .text rfl
      | error e => exact .error ⟨rfl, rfl, rfl⟩
  | cons node back ih =>
      obtain ⟨position, joined⟩ :=
        meaningAll_addNode env template active locals node (onto front back) start before
      have behind : onto front (node :: back) = addNode node (onto front back) := rfl
      simp only [behind, joined, List.reverse_cons, meaningAll_append, meaningAll_single,
        ← bind_assoc]
      refine ih.bind fun text text' same => ?_
      have alike := node.meaning_alike env.simulates_self template template active locals
        (start' + sizes back.reverse) position id same
      rw [Node.plant_id] at alike
      exact alike.mono fun e e' moved => moved.of_same fun _ _ => id

end

/-! ## Whose operation fails -/

theorem exists_other_name (a b : String) : ∃ name : String, name ≠ a ∧ name ≠ b := by
  refine ⟨a ++ b ++ "'", fun same => ?_, fun same => ?_⟩
  all_goals
    have length := congrArg String.length same
    simp only [String.length_append] at length
    have one : "'".length = 1 := rfl
    omega

/-- An error that has the name of the template exactly if it is one of its own was moved to another
line in this case, and stays where it is in the other one. -/
theorem Moved.of_all_names {template' : String} {g : Nat → Nat} {e e' : RenderError} {own : Prop}
    [Decidable own]
    (moved : ∀ name, Moved SamePlace name template' g
      (if own then { e with template := name } else e) e') :
    e'.cause = e.cause ∧ e'.line = if own then g e.line else e.line := by
  obtain ⟨name, other, other'⟩ := exists_other_name e.template e'.template
  have moved := moved name
  obtain ⟨template, i, line, cause⟩ := e
  by_cases this : own
  · simp only [if_pos this] at moved ⊢
    cases moved with
    | own => exact ⟨rfl, rfl⟩
    | inside same => exact absurd same.template other'
  · simp only [if_neg this] at moved ⊢
    cases moved with
    | own => exact absurd rfl other
    | inside same => exact ⟨same.cause.symm, same.line.symm⟩

/-! ## Templates behind other ones -/

namespace Template

/-- A template with another one behind it, a number of lines further down. -/
def followedBy (t : Template) (title : String) (t' : Template) (k : Nat) : Template :=
  .ofNodes title (onto t.nodes.reverse (plantAll (· + k) (fun _ => none) t'.nodes).reverse).reverse

variable (env : Env) (t t' : Template) (title : String) (k : Nat)

theorem meaning_alike :
    Alike Eq (Moved SamePlace t.name title id) (t.meaning env)
      (meaningAll env title [] [] 0 "" t.nodes) := by
  have alike := meaningAll_alike env.simulates_self t.nodes t.name title [] [] 0 0 id
    (rfl : "" = "")
  rwa [plantAll_id] at alike

theorem followedBy_alike :
    Alike Eq SamePlace
      (meaningAll env title [] [] 0 "" t.nodes >>= fun text =>
        meaningAll env title [] [] 0 text (plantAll (· + k) (fun _ => none) t'.nodes))
      ((t.followedBy title t' k).meaning env) := by
  have alike := meaningAll_onto env title [] [] t.nodes.reverse
    (plantAll (· + k) (fun _ => none) t'.nodes).reverse 0 0 ""
  rwa [List.reverse_reverse, List.reverse_reverse] at alike

variable {env t}

/-- Where the first template fails, both fail for the same cause on the same line. -/
theorem followedBy_of_error {e : RenderError} (fails : t.meaning env = .error e) :
    ∃ e', (t.followedBy title t' k).meaning env = .error e' ∧ e'.cause = e.cause ∧
      e'.line = e.line := by
  have first := t.meaning_alike env title
  have both := t.followedBy_alike env t' title k
  rw [fails] at first
  obtain ⟨e₁, fails, moved⟩ := first.exists_error
  rw [fails] at both
  obtain ⟨e', fails, same⟩ := both.exists_error
  refine ⟨e', fails, same.cause.symm.trans (moved.cause_eq fun _ _ same => same.cause.symm),
    same.line.symm.trans ?_⟩
  cases moved with
  | own => rfl
  | inside same => exact same.line.symm

/-- Where the first template leads to a text, both lead to what the second leads to behind this
text, whatever its name is. -/
theorem followedBy_of_ok (steady : env.Steady) {a : String} (text : t.meaning env = .ok a)
    (name : String) :
    Alike (fun s s' => s' = a ++ s) (Moved SamePlace name title (· + k))
      ((t'.renamed name).meaning env) ((t.followedBy title t' k).meaning env) := by
  have first := t.meaning_alike env title
  have second := meaningAll_alike (steady.simulates a) t'.nodes name title [] [] 0 0 (· + k)
    (String.append_empty.symm : a = a ++ "")
  have both := t.followedBy_alike env t' title k
  rw [text] at first
  obtain ⟨_, text, rfl⟩ := first.exists_text
  rw [text] at both
  refine second.trans both fun e e' e'' moved same => ?_
  obtain ⟨template, i, line, cause⟩ := e''
  obtain ⟨rfl, rfl, rfl⟩ := same
  cases moved with
  | own => exact .own ..
  | inside same' => exact .inside ⟨same'.template, same'.line, same'.cause⟩

variable {t'}

/-- Source texts one behind the other compile to a template behind another one, if no block of the
one has the name of a block of the other. -/
theorem compile_append {name name' source source' : String} (compiled : compile name source = .ok t)
    (compiled' : compile name' source' = .ok t')
    (apart : ∀ block, ¬ (t.hasBlock block = true ∧ t'.hasBlock block = true)) :
    compile title (source ++ source') =
      .ok (t.followedBy title t' (source.toList.count '\n')) := by
  obtain ⟨nodes, tree, rfl⟩ := compile_eq_ok_iff.1 compiled
  obtain ⟨nodes', tree', rfl⟩ := compile_eq_ok_iff.1 compiled'
  obtain ⟨ds, one⟩ := exists_consists tree
  obtain ⟨ds', two⟩ := exists_consists tree'
  refine compile_eq_ok_iff.2 ⟨_, ?_, rfl⟩
  rw [String.toList_append]
  refine one.ofSource_append two tree tree' fun block mem mem' => apart block ⟨?_, ?_⟩
  · rw [← one.names_blocksAll tree] at mem
    exact hasBlock_of_mem (namesOnce_of_ofSource tree) mem
  · rw [← two.names_blocksAll tree'] at mem'
    exact hasBlock_of_mem (namesOnce_of_ofSource tree') mem'

end Template

/-- **Rendering takes source texts one behind the other to texts one behind the other.** Two source
texts that compile and have no name of a block in common make up one that compiles, in the middle of
a line as well. Where callables do not read the output so far, it renders to both texts. It fails
where the first one fails, on the same line, or else where the second one fails: as many lines
further down as the first one has, if the operation is one of the template itself, and on the same
line if it is one of an override. -/
theorem render_append {name name' source source' : String} {t t' : Template}
    (compiled : Template.compile name source = .ok t)
    (compiled' : Template.compile name' source' = .ok t')
    (apart : ∀ block, ¬ (t.hasBlock block = true ∧ t'.hasBlock block = true)) (title : String) :
    ∃ both, Template.compile title (source ++ source') = .ok both ∧
      ∀ env : Env, env.Steady →
        (∀ a b, t.render env = .text a → t'.render env = .text b →
          both.render env = .text (a ++ b)) ∧
        (∀ e, t.render env = .failed e →
          ∃ e', both.render env = .failed e' ∧ e'.cause = e.cause ∧ e'.line = e.line) ∧
        ∀ a e, t.render env = .text a → t'.render env = .failed e →
          ∃ e' last f rest, both.render env = .failed e' ∧ e'.cause = e.cause ∧
            Machine.Reached t' env last ∧ Machine.step env last = .failed e ∧
            last.frames = f :: rest ∧
            e'.line = if f.replaces = none then e.line + source.toList.count '\n' else e.line := by
  refine ⟨_, Template.compile_append title compiled compiled' apart, ?_⟩
  intro env steady
  let k := source.toList.count '\n'
  simp only [render_eq_text_iff, render_eq_failed_iff]
  refine ⟨?_, ?_, ?_⟩
  · intro a b text text'
    have alike := Template.followedBy_of_ok t' title k steady text t'.name
    rw [Template.renamed_self, text'] at alike
    obtain ⟨_, both, rfl⟩ := alike.exists_text
    exact both
  · intro e fails
    exact Template.followedBy_of_error t' title k fails
  · intro a e text fails
    obtain ⟨last, f, rest, reached, top, failed, renamed⟩ :=
      Machine.failed_of_render (render_eq_failed_iff.2 fails)
    have behind := Template.followedBy_of_ok t' title k steady text
    have alike := behind t'.name
    rw [Template.renamed_self, fails] at alike
    obtain ⟨e', both, -⟩ := alike.exists_error
    -- Under every name of the second template both fail with this error.
    have moved : ∀ name, Moved SamePlace name title (· + k)
        (if f.replaces = none then { e with template := name } else e) e' := by
      intro name
      have alike := behind name
      rw [render_eq_failed_iff.1 (renamed name), both] at alike
      cases alike with
      | error moved => exact moved
    obtain ⟨cause, line⟩ := Moved.of_all_names moved
    exact ⟨e', last, f, rest, both, cause, reached, failed, top, line⟩

set_option maxRecDepth 2000 in
/-- A text that ends in the middle of its second line, and one that begins there; the second one
fails if a variable is not bound. -/
theorem render_append_line :
    let source := "\x7b%block b%\x7d\x7b$x\x7d\x7b%endblock%\x7d\n-"
    let source' := "-\x7b%call c%\x7d\x7b$v\x7d"
    let t := Template.ofNodes "first"
      [.block 1 "b" [.output 1 ⟨"x", [], []⟩] 1, .text 1 "\n-"]
    let t' := Template.ofNodes "second" [.text 1 "-", .call 1 "c" [], .output 1 ⟨"v", [], []⟩]
    let env (globals : List (String × Value)) : Env :=
      ⟨Context.ofEntries globals, [], [("c", fun _ _ => .ok "*")], []⟩
    let bound := env [("v", .int 2), ("x", .int 1)]
    let unbound := env [("x", .int 1)]
    Template.compile "first" source = .ok t ∧ Template.compile "second" source' = .ok t' ∧
      (∀ block, ¬ (t.hasBlock block = true ∧ t'.hasBlock block = true)) ∧
      (∀ globals, (env globals).Steady) ∧
      t.render bound = .text "1\n-" ∧ t'.render bound = .text "-*2" ∧
      t.render unbound = .text "1\n-" ∧
      t'.render unbound = .failed ⟨"second", 2, 1, .undefinedVariable "v"⟩ ∧
      ∃ both, Template.compile "page" (source ++ source') = .ok both ∧
        both.render bound = .text "1\n--*2" ∧
        ∃ e, both.render unbound = .failed e ∧ e.cause = .undefinedVariable "v" ∧
          e.line = 2 := by
  intro source source' t t' env bound unbound
  have compiled : Template.compile "first" source = .ok t :=
    Template.compile_eq_ok_iff.2 ⟨_, by cbv, rfl⟩
  have compiled' : Template.compile "second" source' = .ok t' :=
    Template.compile_eq_ok_iff.2 ⟨_, by cbv, rfl⟩
  have apart : ∀ block, ¬ (t.hasBlock block = true ∧ t'.hasBlock block = true) := by
    rintro block ⟨-, has⟩
    cases has
  have steady : ∀ globals, (env globals).Steady := by
    intro globals name callable found arguments written written'
    rw [Dict.find?_cons] at found
    split at found
    · obtain rfl := Option.some.inj found
      rfl
    · cases found
  have text : t.render bound = .text "1\n-" := render_eq_text_iff.2 (by cbv)
  have text' : t'.render bound = .text "-*2" := render_eq_text_iff.2 (by cbv)
  have text'' : t.render unbound = .text "1\n-" := render_eq_text_iff.2 (by cbv)
  have fails : t'.render unbound = .failed ⟨"second", 2, 1, .undefinedVariable "v"⟩ :=
    render_eq_failed_iff.2 (by cbv)
  obtain ⟨both, compiles, renders⟩ := render_append compiled compiled' apart "page"
  obtain ⟨texts, -, -⟩ := renders bound (steady _)
  obtain ⟨-, -, behind⟩ := renders unbound (steady _)
  obtain ⟨e, last, f, rest, failed, cause, reached, -, top, line⟩ := behind _ _ text'' fails
  have own : f.replaces = none := by
    -- There is no override, so no frame replaces a block.
    cases replaces : f.replaces with
    | none => rfl
    | some block =>
        have active : block ∈ Machine.active last.frames := by
          rw [top, Machine.active, List.filterMap_cons_some replaces]
          exact List.mem_cons_self
        cases reached.distinct.2.1 block active
  rw [if_pos own] at line
  exact ⟨compiled, compiled', apart, steady, text, text', text'', fails, both, compiles,
    texts _ _ text text', e, failed, cause, line.trans (by decide)⟩

end BraceTemplate
