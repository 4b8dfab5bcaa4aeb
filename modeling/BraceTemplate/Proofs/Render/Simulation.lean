/-
# BraceTemplate.Proofs.Render.Simulation — nodes that are run elsewhere

Nodes that stand in another template, on other lines and at another position, behind another text
and with overrides that were moved in the same way, lead to an alike result: their texts are related
as the texts before them, and they fail for the same cause, on the line that theirs was moved to.

* `Env.Simulates`: what the other environment must have in common with the first;
* `meaningAll_alike`: what nodes lead to in the one and in the other.
-/
import BraceTemplate.Proofs.Render.Agreement
import BraceTemplate.Proofs.Source.Planting
import BraceTemplate.Render.Tree

namespace BraceTemplate

set_option autoImplicit false

open RenderError (Cause)

/-! ## Results -/

/-- Results of two runs whose texts, or whose errors, are related. -/
inductive Alike (texts : String → String → Prop) (errors : RenderError → RenderError → Prop) :
    Except RenderError String → Except RenderError String → Prop where
  | text {s s' : String} : texts s s' → Alike texts errors (.ok s) (.ok s')
  | error {e e' : RenderError} : errors e e' → Alike texts errors (.error e) (.error e')

namespace Alike

variable {texts : String → String → Prop} {errors errors' : RenderError → RenderError → Prop}
  {r r' : Except RenderError String}

theorem mono (alike : Alike texts errors r r') (weaker : ∀ e e', errors e e' → errors' e e') :
    Alike texts errors' r r' := by
  cases alike with
  | text same => exact .text same
  | error same => exact .error (weaker _ _ same)

theorem exists_text {s : String} (alike : Alike texts errors (.ok s) r) :
    ∃ s', r = .ok s' ∧ texts s s' := by
  cases alike with
  | text same => exact ⟨_, rfl, same⟩

theorem exists_error {e : RenderError} (alike : Alike texts errors (.error e) r) :
    ∃ e', r = .error e' ∧ errors e e' := by
  cases alike with
  | error related => exact ⟨_, rfl, related⟩

/-- Errors may be related once more, as long as that relates them no further. -/
theorem trans (alike : Alike texts errors r r') {r'' : Except RenderError String}
    (same : Alike Eq errors' r' r'')
    (closed : ∀ e e' e'', errors e e' → errors' e' e'' → errors e e'') :
    Alike texts errors r r'' := by
  cases alike with
  | text related =>
      obtain ⟨s, rfl, rfl⟩ := same.exists_text
      exact .text related
  | error related =>
      obtain ⟨e, rfl, related'⟩ := same.exists_error
      exact .error (closed _ _ _ related related')

theorem bind (alike : Alike texts errors r r') {f f' : String → Except RenderError String}
    (next : ∀ s s', texts s s' → Alike texts errors (f s) (f' s')) :
    Alike texts errors (r >>= f) (r' >>= f') := by
  cases alike with
  | text same => exact next _ _ same
  | error same => exact .error same

theorem foldlM {α : Type} {f f' : String → α → Except RenderError String}
    (next : ∀ s s', texts s s' → ∀ a, Alike texts errors (f s a) (f' s' a)) (items : List α) :
    ∀ {s s' : String}, texts s s' → Alike texts errors (items.foldlM f s) (items.foldlM f' s') := by
  induction items with
  | nil =>
      intro s s' same
      exact .text same
  | cons a items ih =>
      intro s s' same
      rw [List.foldlM_cons, List.foldlM_cons]
      exact (next s s' same a).bind fun t t' same' => ih same'

end Alike

/-- Errors of one template, on one line and with one cause. -/
structure RenderError.SamePlace (e e' : RenderError) : Prop where
  template : e.template = e'.template
  line : e.line = e'.line
  cause : e.cause = e'.cause

open RenderError (SamePlace)

/-- Errors of nodes that were moved from one template to another: a node of these has the same cause
and the line it was moved to, and errors in overrides are related as given. -/
inductive Moved (errors : RenderError → RenderError → Prop) (template template' : String)
    (g : Nat → Nat) : RenderError → RenderError → Prop where
  | own (i i' line : Nat) (cause : Cause) :
      Moved errors template template' g ⟨template, i, line, cause⟩ ⟨template', i', g line, cause⟩
  | inside {e e' : RenderError} : errors e e' → Moved errors template template' g e e'

/-- Where errors in overrides keep their cause, all errors do. -/
theorem Moved.cause_eq {errors : RenderError → RenderError → Prop} {template template' : String}
    {g : Nat → Nat} {e e' : RenderError} (moved : Moved errors template template' g e e')
    (causes : ∀ e e', errors e e' → e'.cause = e.cause) : e'.cause = e.cause := by
  cases moved with
  | own => rfl
  | inside related => exact causes _ _ related

/-- Nodes that were moved within a template and stay on their lines fail at the same places. -/
theorem Moved.of_same {errors : RenderError → RenderError → Prop} {template : String}
    {e e' : RenderError} (moved : Moved errors template template id e e')
    (same : ∀ e e', SamePlace e e' → errors e e') : errors e e' := by
  cases moved with
  | own => exact same _ _ ⟨rfl, rfl, rfl⟩
  | inside related => exact related

/-! ## Environments -/

/-- An override and what it was moved to. -/
def Override.MovedTo (errors : RenderError → RenderError → Prop) (o o' : Override) : Prop :=
  ∃ g : Nat → Nat, o'.nodes = plantAll g (fun _ => none) o.nodes ∧
    ∀ e e', Moved errors o.template.name o'.template.name g e e' → errors e e'

/-- What an environment has in common with another one in which overrides were moved: expressions
have the same values, calls append the same text behind related ones, and the same blocks have
overrides. -/
structure Env.Simulates (env env' : Env) (texts : String → String → Prop)
    (errors : RenderError → RenderError → Prop) : Prop where
  globals : env.globals = env'.globals
  modifiers : env.modifiers = env'.modifiers
  append {a b : String} : texts a b → ∀ s, texts (a ++ s) (b ++ s)
  call {a b : String} : texts a b → ∀ (locals : Dict Value) (name : String)
    (args : List (String × Expr)), env.call locals a name args = env'.call locals b name args
  overrides (name : String) : Option.Rel (Override.MovedTo errors) (env.overrides.find? name)
    (env'.overrides.find? name)

/-- Overrides that were not moved. -/
theorem Overrides.movedTo_self {errors : RenderError → RenderError → Prop}
    (same : ∀ e e', SamePlace e e' → errors e e') (overrides : Overrides) (name : String) :
    Option.Rel (Override.MovedTo errors) (overrides.find? name) (overrides.find? name) := by
  cases overrides.find? name with
  | none => exact .none
  | some o =>
      refine .some ⟨id, (plantAll_id o.nodes).symm, ?_⟩
      intro e e' moved
      exact moved.of_same same

/-! ## Nodes that were moved -/

section

variable {env env' : Env} {texts : String → String → Prop}
  {errors : RenderError → RenderError → Prop}

theorem Env.Simulates.override? (simulates : env.Simulates env' texts errors)
    (active : List String) (name : String) :
    Option.Rel (Override.MovedTo errors) (env.override? active name)
      (env'.override? active name) := by
  rw [Env.override?, Env.override?]
  by_cases mem : name ∈ active
  · rw [if_pos mem, if_pos mem]
    exact .none
  · rw [if_neg mem, if_neg mem]
    exact simulates.overrides name

theorem Env.Simulates.override?_none (simulates : env.Simulates env' texts errors)
    {active : List String} {name : String} (none : env.override? active name = none) :
    env'.override? active name = .none := by
  have related := simulates.override? active name
  rw [none] at related
  generalize env'.override? active name = found at related ⊢
  cases related
  rfl

theorem Env.Simulates.override?_some (simulates : env.Simulates env' texts errors)
    {active : List String} {name : String} {o : Override}
    (chosen : env.override? active name = some o) :
    ∃ o', env'.override? active name = some o' ∧ o.MovedTo errors o' := by
  have related := simulates.override? active name
  rw [chosen] at related
  generalize env'.override? active name = found at related ⊢
  cases related with
  | some moved => exact ⟨_, rfl, moved⟩

mutual

theorem Node.meaning_alike (simulates : env.Simulates env' texts errors) (node : Node)
    (template template' : String) (active : List String) (locals : Dict Value)
    (start start' : Nat) (g : Nat → Nat) {before before' : String} (same : texts before before') :
    Alike texts (Moved errors template template' g)
      (node.meaning env template active locals start before)
      ((node.plant g fun _ => none).meaning env' template' active locals start' before') :=
  have agrees := Expr.agrees_of_eq simulates.globals simulates.modifiers
  match node with
  | .text _ s => by
      rw [Node.plant, Node.meaning, Node.meaning]
      exact .text (simulates.append same s)
  | .output line expr => by
      rw [Node.plant, Node.meaning, Node.meaning, ← (agrees expr).output_eq locals]
      cases env.output locals expr with
      | ok s => exact .text (simulates.append same s)
      | error cause => exact .error (.own start start' line cause)
  | .call line name arguments => by
      rw [Node.plant, Node.meaning, Node.meaning, ← simulates.call same]
      cases env.call locals before name arguments with
      | ok s => exact .text (simulates.append same s)
      | error cause => exact .error (.own start start' line cause)
  | .ifThen line condition yes _ => by
      rw [Node.plant, Node.meaning, Node.meaning, ← (agrees condition).holds_eq locals]
      rcases env.holds locals condition with cause | _ | _
      · exact .error (.own start start' line cause)
      · exact .text same
      · exact meaningAll_alike simulates yes template template' active locals _ _ g same
  | .ifElse line condition yes _ no _ => by
      rw [Node.plant, Node.meaning, Node.meaning, ← (agrees condition).holds_eq locals]
      rcases env.holds locals condition with cause | _ | _
      · exact .error (.own start start' line cause)
      · exact meaningAll_alike simulates no template template' active locals _ _ g same
      · exact meaningAll_alike simulates yes template template' active locals _ _ g same
  | .loop line item collection body _ => by
      rw [Node.plant, Node.meaning, Node.meaning, ← (agrees collection).items_eq locals]
      cases env.items locals collection with
      | error cause => exact .error (.own start start' line cause)
      | ok items =>
          refine Alike.foldlM (fun s s' same entry => ?_) items.zipIdx same
          exact meaningAll_alike simulates body template template' active _ _ _ g same
  | .block line name body _ => by
      rw [Node.plant]
      cases chosen : env.override? active name with
      | none =>
          have chosen' := simulates.override?_none chosen
          rw [Node.meaning_block_of_none chosen, Node.meaning_block_of_none chosen']
          exact meaningAll_alike simulates body template template' active locals _ _ g same
      | some o =>
          obtain ⟨o', chosen', h, nodes, related⟩ := simulates.override?_some chosen
          rw [Node.meaning_block_of_some chosen, Node.meaning_block_of_some chosen', nodes]
          have inside := meaningAll_alike simulates o.nodes o.template.name o'.template.name
            (name :: active) locals o.start o'.start h same
          exact inside.mono fun e e' moved => .inside (related e e' moved)
  termination_by ((env.inactive active).length, sizeOf node)
  decreasing_by
    rotate_right
    · exact Prod.Lex.left _ _ (Env.length_inactive_cons ‹_›)
    all_goals
      refine Prod.Lex.right _ ?_
      simp only [Node.ifThen.sizeOf_spec, Node.ifElse.sizeOf_spec, Node.loop.sizeOf_spec,
        Node.block.sizeOf_spec]
      omega

theorem meaningAll_alike (simulates : env.Simulates env' texts errors) (nodes : List Node)
    (template template' : String) (active : List String) (locals : Dict Value)
    (start start' : Nat) (g : Nat → Nat) {before before' : String} (same : texts before before') :
    Alike texts (Moved errors template template' g)
      (meaningAll env template active locals start before nodes)
      (meaningAll env' template' active locals start' before'
        (plantAll g (fun _ => none) nodes)) :=
  match nodes with
  | [] => by
      rw [plantAll, meaningAll, meaningAll]
      exact .text same
  | node :: rest => by
      have first :=
        node.meaning_alike simulates template template' active locals start start' g same
      rw [plantAll, meaningAll, meaningAll]
      revert first
      generalize node.meaning env template active locals start before = r
      generalize (node.plant g _).meaning env' template' active locals start' before' = r'
      intro first
      cases first with
      | text same' =>
          exact meaningAll_alike simulates rest template template' active locals _ _ g same'
      | error related => exact .error related
  termination_by ((env.inactive active).length, sizeOf nodes)
  decreasing_by
    all_goals exact Prod.Lex.right _ (by simp only [List.cons.sizeOf_spec]; omega)

end

end

end BraceTemplate
