/-
# BraceTemplate.Proofs.Source.Grammar — rows of directives

`Items` is the grammar of a template: texts, expressions and calls in any order, and constructs that
are closed, with items inside. `Within around directives` says what directives a draft has taken so
far: items, and for every open construct its opening directive and the items behind it.

* `Items.taken`: any draft takes items, adds the same nodes and leaves open what was open;
* `Within.add`: a draft takes a directive only if the row stays within the grammar;
* `Within.completed`: closing the open constructs makes items of any such row.
-/
import BraceTemplate.Proofs.Source.Wording
import BraceTemplate.Tree.Draft

namespace BraceTemplate

set_option autoImplicit false

/-- Directives with their lines that make up whole items: text, expressions, calls and constructs
that are closed. -/
inductive Items : List (Nat × Directive) → Prop where
  | done : Items []
  | text {line : Nat} {s : String} {rest : List (Nat × Directive)} :
      Items rest → Items ((line, .text s) :: rest)
  | output {line : Nat} {expr : Expr} {rest : List (Nat × Directive)} :
      Items rest → Items ((line, .output expr) :: rest)
  | call {line : Nat} {name : String} {arguments : List (String × Expr)}
      {rest : List (Nat × Directive)} :
      Items rest → Items ((line, .call name arguments) :: rest)
  | ifThen {line endLine : Nat} {condition : Expr} {yes rest : List (Nat × Directive)} :
      Items yes → Items rest →
        Items ((line, .openIf condition) :: (yes ++ (endLine, .closeIf) :: rest))
  | ifElse {line elseLine endLine : Nat} {condition : Expr} {yes no rest : List (Nat × Directive)} :
      Items yes → Items no → Items rest →
        Items ((line, .openIf condition) ::
          (yes ++ (elseLine, .orElse) :: (no ++ (endLine, .closeIf) :: rest)))
  | loop {line endLine : Nat} {item : String} {collection : Expr}
      {body rest : List (Nat × Directive)} :
      Items body → Items rest →
        Items ((line, .openFor item collection) :: (body ++ (endLine, .closeFor) :: rest))
  /-- The label at the end of a block is empty or its name. -/
  | block {line endLine : Nat} {name label : String} {body rest : List (Nat × Directive)}
      (named : label = "" ∨ label = name) :
      Items body → Items rest →
        Items ((line, .openBlock name) :: (body ++ (endLine, .closeBlock label) :: rest))

/-- The names of the blocks that directives open. -/
def openedBlocks : List (Nat × Directive) → List String
  | [] => []
  | (_, .openBlock name) :: rest => name :: openedBlocks rest
  | _ :: rest => openedBlocks rest

/-- Directives behind one that opens a construct, all of whose own constructs are closed, while the
construct itself is still open. -/
inductive Unfinished : Directive → List (Nat × Directive) → Prop where
  | ifThen {condition : Expr} {yes : List (Nat × Directive)} :
      Items yes → Unfinished (.openIf condition) yes
  | ifElse {elseLine : Nat} {condition : Expr} {yes no : List (Nat × Directive)} :
      Items yes → Items no → Unfinished (.openIf condition) (yes ++ (elseLine, .orElse) :: no)
  | loop {item : String} {collection : Expr} {body : List (Nat × Directive)} :
      Items body → Unfinished (.openFor item collection) body
  | block {name : String} {body : List (Nat × Directive)} :
      Items body → Unfinished (.openBlock name) body

/-- Directives up to a place within open constructs, given innermost first. -/
inductive Within : List Enclosing → List (Nat × Directive) → Prop where
  | outside {ds : List (Nat × Directive)} : Items ds → Within [] ds
  | ifThen {around : List Enclosing} {front yes : List (Nat × Directive)} {line : Nat}
      {condition : Expr} {before : List Node} : Within around front → Items yes →
        Within (⟨.ifThen condition, line, before⟩ :: around)
          (front ++ (line, .openIf condition) :: yes)
  | ifElse {around : List Enclosing} {front yes no : List (Nat × Directive)} {line elseLine : Nat}
      {condition : Expr} {nodes before : List Node} : Within around front → Items yes → Items no →
        Within (⟨.ifElse condition nodes elseLine, line, before⟩ :: around)
          (front ++ (line, .openIf condition) :: (yes ++ (elseLine, .orElse) :: no))
  | loop {around : List Enclosing} {front body : List (Nat × Directive)} {line : Nat}
      {item : String} {collection : Expr} {before : List Node} : Within around front → Items body →
        Within (⟨.loop item collection, line, before⟩ :: around)
          (front ++ (line, .openFor item collection) :: body)
  | block {around : List Enclosing} {front body : List (Nat × Directive)} {line : Nat}
      {name : String} {before : List Node} : Within around front → Items body →
        Within (⟨.block name, line, before⟩ :: around)
          (front ++ (line, .openBlock name) :: body)

/-! ## Rows -/

theorem openedBlocks_append (first second : List (Nat × Directive)) :
    openedBlocks (first ++ second) = openedBlocks first ++ openedBlocks second := by
  induction first with
  | nil => rfl
  | cons entry first ih =>
      obtain ⟨line, d⟩ := entry
      cases d <;> simp [openedBlocks, ih]

theorem Items.append {first second : List (Nat × Directive)} (items : Items first)
    (more : Items second) : Items (first ++ second) := by
  induction items with
  | done => exact more
  | text _ ih => exact .text ih
  | output _ ih => exact .output ih
  | call _ ih => exact .call ih
  | ifThen yes _ _ ih =>
      rw [List.cons_append, List.append_assoc]
      exact .ifThen yes ih
  | ifElse yes no _ _ _ ih =>
      rw [List.cons_append, List.append_assoc, List.cons_append, List.append_assoc]
      exact .ifElse yes no ih
  | loop body _ _ ih =>
      rw [List.cons_append, List.append_assoc]
      exact .loop body ih
  | block named body _ _ ih =>
      rw [List.cons_append, List.append_assoc]
      exact .block named body ih

theorem Within.append {around : List Enclosing} {ds more : List (Nat × Directive)}
    (within : Within around ds) (items : Items more) : Within around (ds ++ more) := by
  cases within with
  | outside first => exact .outside (first.append items)
  | ifThen front yes =>
      rw [List.append_assoc]
      exact .ifThen front (yes.append items)
  | ifElse front yes no =>
      rw [List.append_assoc, List.cons_append, List.append_assoc]
      exact .ifElse front yes (no.append items)
  | loop front body =>
      rw [List.append_assoc]
      exact .loop front (body.append items)
  | block front body =>
      rw [List.append_assoc]
      exact .block front (body.append items)

/-! ## Nodes behind other ones -/

/-- A node behind other ones, of which the latest comes first; text behind text becomes one node. -/
def addNode (node : Node) (nodes : List Node) : List Node :=
  match node, nodes with
  | .text _ s, .text line before :: rest => .text line (before ++ s) :: rest
  | node, nodes => node :: nodes

/-- Nodes behind other ones, of which the latest come first. -/
def onto (front back : List Node) : List Node :=
  back.foldr addNode front

/-- Texts in a row are one text. -/
theorem addNode_text (line first : Nat) (before s : String) (nodes : List Node) :
    addNode (.text line s) (addNode (.text first before) nodes) =
      addNode (.text first (before ++ s)) nodes := by
  cases nodes with
  | nil => rfl
  | cons last nodes =>
      cases last with
      | text => simp only [addNode, String.append_assoc]
      | _ => rfl

/-- A node that becomes part of a text does so whatever stands in front of the text. -/
theorem onto_addNode (front : List Node) (node : Node) (nodes : List Node) :
    onto front (addNode node nodes) = addNode node (onto front nodes) := by
  cases node with
  | text line s =>
      cases nodes with
      | nil => rfl
      | cons last nodes =>
          cases last with
          | text first before => exact (addNode_text line first before s _).symm
          | _ => rfl
  | _ => rfl

theorem onto_onto (front nodes back : List Node) :
    onto (onto front nodes) back = onto front (onto nodes back) := by
  induction back with
  | nil => rfl
  | cons node back ih => exact (congrArg (addNode node) ih).trans (onto_addNode front node _).symm

/-! ## What a draft takes -/

namespace Draft

open CompileError

/-- Adding directives with their lines one by one leads from one draft to another. -/
inductive Adds : Draft → List (Nat × Directive) → Draft → Prop where
  | done (d : Draft) : Adds d [] d
  | next {d e f : Draft} {line : Nat} {directive : Directive} {rest : List (Nat × Directive)}
      (added : d.add line directive = .ok e) :
      Adds e rest f → Adds d ((line, directive) :: rest) f

namespace Adds

variable {d e f : Draft} {first second : List (Nat × Directive)}

theorem single {line : Nat} {directive : Directive} (added : d.add line directive = .ok e) :
    Adds d [(line, directive)] e :=
  .next added (.done e)

theorem trans (one : Adds d first e) (two : Adds e second f) : Adds d (first ++ second) f := by
  induction one with
  | done => exact two
  | next added _ ih => exact .next added (ih two)

theorem split (both : Adds d (first ++ second) f) : ∃ e, Adds d first e ∧ Adds e second f := by
  induction first generalizing d with
  | nil => exact ⟨d, .done d, both⟩
  | cons entry first ih =>
      cases both with
      | next added rest =>
          obtain ⟨e, one, two⟩ := ih rest
          exact ⟨e, .next added one, two⟩

theorem unique (one : Adds d first e) (other : Adds d first f) : e = f := by
  induction one with
  | done =>
      cases other
      rfl
  | next added _ ih =>
      cases other with
      | next added' rest =>
          obtain rfl := Except.ok.inj (added.symm.trans added')
          exact ih rest

end Adds

theorem pushText_eq (d : Draft) (line : Nat) (s : String) :
    d.pushText line s = { d with body := addNode (.text line s) d.body } := by
  obtain ⟨body, around, names⟩ := d
  cases body with
  | nil => rfl
  | cons node rest => cases node <;> rfl

theorem around_pushText (d : Draft) (line : Nat) (s : String) :
    ∃ body, d.pushText line s = ⟨body, d.around, d.names⟩ :=
  ⟨_, d.pushText_eq line s⟩

/-- A construct that is closed becomes the last node of the construct around it. -/
theorem close_eq (opening : Opening) (line endLine : Nat) (body before : List Node)
    (around : List Enclosing) (names : List String) :
    close ⟨body, ⟨opening, line, before⟩ :: around, names⟩ endLine opening.construct =
      .ok ⟨opening.close line body.reverse endLine :: before, around, names⟩ :=
  if_pos rfl

end Draft

open Draft (Adds close_eq)

/-- Any draft takes directives whose blocks are new to it, adds the same nodes as any other one and
leaves the open constructs as they are. -/
def Taken (ds : List (Nat × Directive)) : Prop :=
  (openedBlocks ds).Nodup → ∃ own, ∀ d : Draft, (∀ name ∈ openedBlocks ds, name ∉ d.names) →
    Adds d ds ⟨onto d.body own, d.around, (openedBlocks ds).reverse ++ d.names⟩

namespace Taken

variable {first second yes no body : List (Nat × Directive)} {line elseLine endLine : Nat}

/-- Names that are new behind other new names. -/
theorem new_behind {names : List String}
    (distinct : (openedBlocks first ++ openedBlocks second).Nodup)
    (new : ∀ name ∈ openedBlocks first ++ openedBlocks second, name ∉ names) :
    ∀ name ∈ openedBlocks second, name ∉ (openedBlocks first).reverse ++ names := by
  intro name mem
  rw [List.mem_append, List.mem_reverse, not_or]
  exact ⟨fun other => (List.nodup_append.1 distinct).2.2 _ other _ mem rfl,
    new name (List.mem_append_right _ mem)⟩

theorem append (one : Taken first) (two : Taken second) : Taken (first ++ second) := by
  intro distinct
  rw [openedBlocks_append] at distinct ⊢
  obtain ⟨distinct₁, distinct₂, -⟩ := List.nodup_append.1 distinct
  obtain ⟨own₁, added₁⟩ := one distinct₁
  obtain ⟨own₂, added₂⟩ := two distinct₂
  refine ⟨onto own₁ own₂, fun d new => ?_⟩
  rw [List.reverse_append, List.append_assoc, ← onto_onto]
  exact (added₁ d fun name mem => new name (List.mem_append_left _ mem)).trans
    (added₂ ⟨_, d.around, _⟩ (new_behind distinct new))

/-- A directive that adds a node to the innermost construct. -/
theorem single {directive : Directive} (node : Node)
    (none : openedBlocks [(line, directive)] = [])
    (adds : ∀ d : Draft, d.add line directive = .ok { d with body := addNode node d.body }) :
    Taken [(line, directive)] := by
  intro _
  rw [none]
  exact ⟨[node], fun d _ => .single (adds d)⟩

theorem ifThen {condition : Expr} (inner : Taken yes) :
    Taken ((line, .openIf condition) :: (yes ++ [(endLine, .closeIf)])) := by
  intro distinct
  have names : openedBlocks ((line, .openIf condition) :: (yes ++ [(endLine, .closeIf)])) =
      openedBlocks yes := by
    simp [openedBlocks, openedBlocks_append]
  rw [names] at distinct ⊢
  obtain ⟨own, added⟩ := inner distinct
  refine ⟨[.ifThen line condition (onto [] own).reverse endLine], fun d new => ?_⟩
  exact .next rfl ((added (d.begin line (.ifThen condition)) new).trans
    (.single (close_eq (.ifThen condition) ..)))

theorem ifElse {condition : Expr} (inner : Taken yes) (other : Taken no) :
    Taken ((line, .openIf condition) ::
      (yes ++ (elseLine, .orElse) :: (no ++ [(endLine, .closeIf)]))) := by
  intro distinct
  have names : openedBlocks ((line, .openIf condition) ::
      (yes ++ (elseLine, .orElse) :: (no ++ [(endLine, .closeIf)]))) =
        openedBlocks (yes ++ no) := by
    simp [openedBlocks, openedBlocks_append]
  rw [names] at distinct ⊢
  rw [openedBlocks_append] at distinct ⊢
  obtain ⟨distinct₁, distinct₂, -⟩ := List.nodup_append.1 distinct
  obtain ⟨own₁, added₁⟩ := inner distinct₁
  obtain ⟨own₂, added₂⟩ := other distinct₂
  let first := (onto [] own₁).reverse
  refine ⟨[.ifElse line condition first elseLine (onto [] own₂).reverse endLine], fun d new => ?_⟩
  have one := added₁ (d.begin line (.ifThen condition))
    fun name mem => new name (List.mem_append_left _ mem)
  have two := added₂ ⟨[], ⟨.ifElse condition first elseLine, line, d.body⟩ :: d.around,
    (openedBlocks yes).reverse ++ d.names⟩ (new_behind distinct new)
  rw [List.reverse_append, List.append_assoc]
  exact .next rfl (one.trans (.next rfl (two.trans
    (.single (close_eq (.ifElse condition first elseLine) ..)))))

theorem loop {item : String} {collection : Expr} (inner : Taken body) :
    Taken ((line, .openFor item collection) :: (body ++ [(endLine, .closeFor)])) := by
  intro distinct
  have names : openedBlocks ((line, .openFor item collection) :: (body ++ [(endLine, .closeFor)])) =
      openedBlocks body := by
    simp [openedBlocks, openedBlocks_append]
  rw [names] at distinct ⊢
  obtain ⟨own, added⟩ := inner distinct
  refine ⟨[.loop line item collection (onto [] own).reverse endLine], fun d new => ?_⟩
  exact .next rfl ((added (d.begin line (.loop item collection)) new).trans
    (.single (close_eq (.loop item collection) ..)))

theorem block {name label : String} (named : label = "" ∨ label = name) (inner : Taken body) :
    Taken ((line, .openBlock name) :: (body ++ [(endLine, .closeBlock label)])) := by
  intro distinct
  have names : openedBlocks ((line, .openBlock name) :: (body ++ [(endLine, .closeBlock label)])) =
      name :: openedBlocks body := by
    simp [openedBlocks, openedBlocks_append]
  rw [names] at distinct ⊢
  obtain ⟨apart, distinct⟩ := List.nodup_cons.1 distinct
  obtain ⟨own, added⟩ := inner distinct
  refine ⟨[.block line name (onto [] own).reverse endLine], fun d new => ?_⟩
  rw [List.forall_mem_cons] at new
  have opened : d.add line (.openBlock name) =
      .ok { d.begin line (.block name) with names := name :: d.names } := if_neg new.1
  have inside := added { d.begin line (.block name) with names := name :: d.names }
    fun other mem => by
      rw [List.mem_cons, not_or]
      exact ⟨fun same => apart (same ▸ mem), new.2 other mem⟩
  have closed : ∀ nodes names,
      Draft.add ⟨nodes, ⟨.block name, line, d.body⟩ :: d.around, names⟩ endLine
          (.closeBlock label) =
        .ok ⟨.block line name nodes.reverse endLine :: d.body, d.around, names⟩ :=
    fun nodes names => (if_pos named).trans (close_eq (.block name) ..)
  rw [List.reverse_cons, List.append_assoc]
  exact .next opened (inside.trans (.single (closed _ _)))

end Taken

/-- Items are taken, whatever constructs are open. -/
theorem Items.taken {ds : List (Nat × Directive)} (items : Items ds) : Taken ds := by
  induction items with
  | done => exact fun _ => ⟨[], fun d _ => .done d⟩
  | @text line s rest _ ih =>
      have one : Taken [(line, .text s)] := .single (.text line s) rfl fun d =>
        congrArg Except.ok (d.pushText_eq line s)
      exact one.append ih
  | @output line expr rest _ ih =>
      have one : Taken [(line, .output expr)] := .single (.output line expr) rfl fun _ => rfl
      exact one.append ih
  | @call line name arguments rest _ ih =>
      have one : Taken [(line, .call name arguments)] :=
        .single (.call line name arguments) rfl fun _ => rfl
      exact one.append ih
  | ifThen _ _ ihYes ihRest => simpa using (Taken.ifThen ihYes).append ihRest
  | ifElse _ _ _ ihYes ihNo ihRest => simpa using (Taken.ifElse ihYes ihNo).append ihRest
  | loop _ _ ihBody ihRest => simpa using (Taken.loop ihBody).append ihRest
  | block named _ _ ihBody ihRest => simpa using (Taken.block named ihBody).append ihRest

/-! ## Rows within the grammar -/

/-- A directive that a draft takes keeps the row within the grammar. -/
theorem Within.add {d e : Draft} {ds : List (Nat × Directive)} {line : Nat} {directive : Directive}
    (within : Within d.around ds) (added : d.add line directive = .ok e) :
    Within e.around (ds ++ [(line, directive)]) := by
  cases directive with
  | text s =>
      obtain ⟨body, same⟩ := d.around_pushText line s
      rw [← Except.ok.inj added, same]
      exact within.append (.text .done)
  | output expr =>
      rw [← Except.ok.inj added]
      exact within.append (.output .done)
  | call name arguments =>
      rw [← Except.ok.inj added]
      exact within.append (.call .done)
  | openIf condition =>
      rw [← Except.ok.inj added]
      exact .ifThen within .done
  | openFor item collection =>
      rw [← Except.ok.inj added]
      exact .loop within .done
  | openBlock name =>
      rw [(Draft.eq_of_openBlock added).2]
      exact .block within .done
  | orElse =>
      obtain ⟨condition, openLine, before, around, open_, rfl⟩ := Draft.eq_of_orElse added
      rw [open_] at within
      cases within with
      | ifThen front yes =>
          rw [List.append_assoc, List.cons_append]
          exact .ifElse front yes .done
  | closeIf =>
      obtain ⟨opening, openLine, before, around, open_, same, rfl⟩ := Draft.eq_of_close added
      rw [open_] at within
      cases within with
      | ifThen front yes =>
          rw [List.append_assoc, List.cons_append]
          exact front.append (.ifThen yes .done)
      | ifElse front yes no =>
          rw [List.append_assoc, List.cons_append, List.append_assoc, List.cons_append]
          exact front.append (.ifElse yes no .done)
      | loop | block => cases same
  | closeFor =>
      obtain ⟨opening, openLine, before, around, open_, same, rfl⟩ := Draft.eq_of_close added
      rw [open_] at within
      cases within with
      | loop front body =>
          rw [List.append_assoc, List.cons_append]
          exact front.append (.loop body .done)
      | ifThen | ifElse | block => cases same
  | closeBlock label =>
      obtain ⟨name, openLine, before, around, open_, named, rfl⟩ := Draft.eq_of_closeBlock added
      rw [open_] at within
      cases within with
      | block front body =>
          rw [List.append_assoc, List.cons_append]
          exact front.append (.block named body .done)

/-- A directive adds no name, or that of the block it opens, which is new. -/
theorem Draft.names_of_add {d e : Draft} {line : Nat} {directive : Directive}
    (added : d.add line directive = .ok e) :
    openedBlocks [(line, directive)] = [] ∧ e.names = d.names ∨
      ∃ name, openedBlocks [(line, directive)] = [name] ∧ name ∉ d.names ∧
        e.names = name :: d.names := by
  cases directive with
  | text s =>
      obtain ⟨body, same⟩ := d.around_pushText line s
      rw [← Except.ok.inj added, same]
      exact .inl ⟨rfl, rfl⟩
  | output | call | openIf | openFor =>
      rw [← Except.ok.inj added]
      exact .inl ⟨rfl, rfl⟩
  | openBlock name =>
      obtain ⟨new, rfl⟩ := Draft.eq_of_openBlock added
      exact .inr ⟨name, rfl, new, rfl⟩
  | orElse =>
      obtain ⟨_, _, _, _, -, rfl⟩ := Draft.eq_of_orElse added
      exact .inl ⟨rfl, rfl⟩
  | closeIf | closeFor =>
      obtain ⟨_, _, _, _, -, -, rfl⟩ := Draft.eq_of_close added
      exact .inl ⟨rfl, rfl⟩
  | closeBlock label =>
      obtain ⟨_, _, _, _, -, -, rfl⟩ := Draft.eq_of_closeBlock added
      exact .inl ⟨rfl, rfl⟩

namespace Draft.Adds

variable {d e : Draft} {ds front : List (Nat × Directive)}

/-- The names of a draft are those of all blocks that were opened, each once. -/
theorem names (adds : Adds d ds e) (distinct : d.names.Nodup) :
    e.names = (openedBlocks ds).reverse ++ d.names ∧ e.names.Nodup := by
  induction adds with
  | done => exact ⟨rfl, distinct⟩
  | @next d e f line directive rest added _ ih =>
      have cons : openedBlocks ((line, directive) :: rest) =
          openedBlocks [(line, directive)] ++ openedBlocks rest :=
        openedBlocks_append [_] rest
      rw [cons]
      rcases names_of_add added with ⟨none, same⟩ | ⟨name, one, new, same⟩
      · rw [same] at ih
        rw [none]
        exact ih distinct
      · rw [same] at ih
        rw [one, List.singleton_append, List.reverse_cons, List.append_assoc]
        exact ih (List.nodup_cons.2 ⟨new, distinct⟩)

theorem within (adds : Adds d ds e) (within : Within d.around front) :
    Within e.around (front ++ ds) := by
  induction adds generalizing front with
  | done => rwa [List.append_nil]
  | next added _ ih =>
      have := ih (within.add added)
      rwa [List.append_assoc] at this

end Draft.Adds

/-! ## Where a row can go on -/

/-- The directive that closes a construct. -/
def Opening.closing : Opening → Directive
  | .ifThen _ | .ifElse _ _ _ => .closeIf
  | .loop _ _ => .closeFor
  | .block _ => .closeBlock ""

namespace Within

variable {e : Enclosing} {around : List Enclosing} {ds : List (Nat × Directive)}

theorem close (within : Within (e :: around) ds) (line : Nat) :
    Within around (ds ++ [(line, e.opening.closing)]) := by
  cases within with
  | ifThen front yes =>
      rw [List.append_assoc, List.cons_append]
      exact front.append (.ifThen yes .done)
  | ifElse front yes no =>
      rw [List.append_assoc, List.cons_append, List.append_assoc, List.cons_append]
      exact front.append (.ifElse yes no .done)
  | loop front body =>
      rw [List.append_assoc, List.cons_append]
      exact front.append (.loop body .done)
  | block front body =>
      rw [List.append_assoc, List.cons_append]
      exact front.append (.block (.inl rfl) body .done)

/-- Closing all open constructs, innermost first, makes items of a row. -/
theorem completed (within : Within around ds) (line : Nat) :
    Items (ds ++ around.map fun e => (line, e.opening.closing)) := by
  induction around generalizing ds with
  | nil =>
      cases within with
      | outside items => rwa [List.map_nil, List.append_nil]
  | cons e around ih =>
      have := ih (within.close line)
      rwa [List.append_assoc] at this

/-- The innermost open construct begins on its line, and all constructs behind are closed. -/
theorem innermost (within : Within (e :: around) ds) :
    ∃ front directive back, ds = front ++ (e.line, directive) :: back ∧
      Unfinished directive back := by
  cases within with
  | ifThen _ yes => exact ⟨_, _, _, rfl, .ifThen yes⟩
  | ifElse _ yes no => exact ⟨_, _, _, rfl, .ifElse yes no⟩
  | loop _ body => exact ⟨_, _, _, rfl, .loop body⟩
  | block _ body => exact ⟨_, _, _, rfl, .block body⟩

end Within

end BraceTemplate
