/-
# BraceTemplate.Proofs.Source.Planting — trees on other lines and with other bodies

`plantAll g f` moves nodes to other lines, by `g`, and puts the bodies that `f` gives in blocks.

* `Adds.plant`: a draft that is planted takes the same directives on the other lines, unless one of
  them opens or closes a block that gets another body;
* `Adds.same_tree`: what a draft makes of directives does not depend on its names, which decide
  only what it refuses.
-/
import BraceTemplate.Proofs.Source.Grammar

namespace BraceTemplate

set_option autoImplicit false

open Draft (Adds close_eq)

mutual

/-- A node on other lines, and with other bodies in its blocks. -/
def Node.plant (g : Nat → Nat) (f : String → Option (List Node)) : Node → Node
  | .text line s => .text (g line) s
  | .output line expr => .output (g line) expr
  | .call line name arguments => .call (g line) name arguments
  | .ifThen line condition yes endLine =>
      .ifThen (g line) condition (plantAll g f yes) (g endLine)
  | .ifElse line condition yes elseLine no endLine =>
      .ifElse (g line) condition (plantAll g f yes) (g elseLine) (plantAll g f no) (g endLine)
  | .loop line item collection body endLine =>
      .loop (g line) item collection (plantAll g f body) (g endLine)
  | .block line name body endLine =>
      .block (g line) name ((f name).getD (plantAll g f body)) (g endLine)

/-- Nodes on other lines, and with other bodies in their blocks. -/
def plantAll (g : Nat → Nat) (f : String → Option (List Node)) : List Node → List Node
  | [] => []
  | node :: rest => node.plant g f :: plantAll g f rest

end

/-- Nodes without their lines. -/
def bareAll (nodes : List Node) : List Node :=
  plantAll (fun _ => 0) (fun _ => none) nodes

section

variable (g : Nat → Nat) (f : String → Option (List Node))

theorem plantAll_eq_map (nodes : List Node) : plantAll g f nodes = nodes.map (Node.plant g f) := by
  induction nodes with
  | nil => rfl
  | cons node rest ih => rw [plantAll, ih, List.map_cons]

theorem plantAll_reverse (nodes : List Node) :
    plantAll g f nodes.reverse = (plantAll g f nodes).reverse := by
  rw [plantAll_eq_map, plantAll_eq_map, List.map_reverse]

theorem bareAll_reverse (nodes : List Node) : bareAll nodes.reverse = (bareAll nodes).reverse :=
  plantAll_reverse ..

mutual

theorem Node.plant_plant (h : Nat → Nat) :
    ∀ node : Node, (node.plant h fun _ => none).plant g f = node.plant (g ∘ h) f
  | .text _ _ | .output _ _ | .call _ _ _ => rfl
  | .ifThen _ _ yes _ => by
      simp only [Node.plant, plantAll_plantAll h yes, Function.comp_apply]
  | .ifElse _ _ yes _ no _ => by
      simp only [Node.plant, plantAll_plantAll h yes, plantAll_plantAll h no, Function.comp_apply]
  | .loop _ _ _ body _ => by
      simp only [Node.plant, plantAll_plantAll h body, Function.comp_apply]
  | .block _ _ body _ => by
      simp only [Node.plant, Option.getD_none, plantAll_plantAll h body, Function.comp_apply]

/-- Nodes that are moved twice are moved once. -/
theorem plantAll_plantAll (h : Nat → Nat) :
    ∀ nodes : List Node, plantAll g f (plantAll h (fun _ => none) nodes) = plantAll (g ∘ h) f nodes
  | [] => rfl
  | node :: rest => by
      rw [plantAll, plantAll, plantAll, node.plant_plant h, plantAll_plantAll h rest]

end

/-- Moving nodes changes nothing but their lines. -/
theorem bareAll_plantAll (nodes : List Node) :
    bareAll (plantAll g (fun _ => none) nodes) = bareAll nodes :=
  plantAll_plantAll ..

mutual

/-- Nodes that stay on their lines and keep their bodies are the same. -/
theorem Node.plant_id : ∀ node : Node, node.plant id (fun _ => none) = node
  | .text _ _ | .output _ _ | .call _ _ _ => rfl
  | .ifThen _ _ yes _ => by rw [Node.plant, plantAll_id yes]; rfl
  | .ifElse _ _ yes _ no _ => by rw [Node.plant, plantAll_id yes, plantAll_id no]; rfl
  | .loop _ _ _ body _ => by rw [Node.plant, plantAll_id body]; rfl
  | .block _ _ body _ => by rw [Node.plant, plantAll_id body]; rfl

theorem plantAll_id : ∀ nodes : List Node, plantAll id (fun _ => none) nodes = nodes
  | [] => rfl
  | node :: rest => by rw [plantAll, node.plant_id, plantAll_id rest]

end

/-- An opening on other lines, and with other bodies in its blocks. -/
def Opening.plant : Opening → Opening
  | .ifThen condition => .ifThen condition
  | .ifElse condition yes elseLine => .ifElse condition (plantAll g f yes) (g elseLine)
  | .loop item collection => .loop item collection
  | .block name => .block name

/-- An open construct on other lines, and with other bodies in its blocks. -/
def Enclosing.plant (e : Enclosing) : Enclosing :=
  ⟨e.opening.plant g f, g e.line, plantAll g f e.before⟩

/-- A draft on other lines, and with other bodies in its blocks. -/
def Draft.plant (d : Draft) : Draft :=
  ⟨plantAll g f d.body, d.around.map (Enclosing.plant g f), d.names⟩

/-- The entries of a row on other lines. -/
def onLines {α : Type} (row : List (Nat × α)) : List (Nat × α) :=
  row.map fun entry => (g entry.1, entry.2)

theorem onLines_append {α : Type} (row more : List (Nat × α)) :
    onLines g (row ++ more) = onLines g row ++ onLines g more :=
  List.map_append

theorem onLines_cons {α : Type} (line : Nat) (a : α) (row : List (Nat × α)) :
    onLines g ((line, a) :: row) = (g line, a) :: onLines g row :=
  rfl

theorem onLines_onLines {α : Type} (h : Nat → Nat) (row : List (Nat × α)) :
    onLines g (onLines h row) = onLines (g ∘ h) row :=
  List.map_map ..

theorem onLines_id {α : Type} (row : List (Nat × α)) : onLines id row = row :=
  List.map_id row

theorem onLines_add_sub {α : Type} (k : Nat) (row : List (Nat × α)) :
    onLines (· - k) (onLines (· + k) row) = row := by
  rw [onLines_onLines, onLines]
  simp

theorem openedBlocks_onLines (ds : List (Nat × Directive)) :
    openedBlocks (onLines g ds) = openedBlocks ds := by
  induction ds with
  | nil => rfl
  | cons entry ds ih =>
      obtain ⟨line, directive⟩ := entry
      rw [onLines_cons]
      cases directive <;> simp only [openedBlocks, ih]

/-- No open construct is a block with another body. -/
def Draft.Fixed (d : Draft) : Prop :=
  ∀ e ∈ d.around, ∀ name, e.opening = .block name → f name = none

end

variable {g : Nat → Nat} {f : String → Option (List Node)}

/-- Where all lines become one, it does not matter which they were. -/
theorem onLines_const {α : Type} (line : Nat) (row : List (Nat × α)) :
    onLines (fun _ => line) (onLines g row) = onLines (fun _ => line) row :=
  onLines_onLines _ g row

theorem Opening.construct_plant (opening : Opening) :
    (opening.plant g f).construct = opening.construct := by
  cases opening <;> rfl

theorem Opening.close_plant {opening : Opening}
    (fixed : ∀ name, opening = .block name → f name = none) (line endLine : Nat)
    (body : List Node) :
    (opening.plant g f).close (g line) (plantAll g f body) (g endLine) =
      (opening.close line body endLine).plant g f := by
  cases opening with
  | ifThen | ifElse | loop => rfl
  | block name =>
      rw [Opening.close, Node.plant, fixed name rfl]
      rfl

namespace Draft

variable {d e : Draft} {line : Nat}

theorem plant_pushText (d : Draft) (line : Nat) (s : String) :
    (d.plant g f).pushText (g line) s = (d.pushText line s).plant g f := by
  obtain ⟨body, around, names⟩ := d
  cases body with
  | nil => rfl
  | cons node rest => cases node <;> rfl

theorem plant_close {construct : Construct} (fixed : d.Fixed f)
    (closed : d.close line construct = .ok e) :
    (d.plant g f).close (g line) construct = .ok (e.plant g f) ∧ e.Fixed f := by
  obtain ⟨opening, openLine, before, around, open_, rfl, rfl⟩ := eq_of_close closed
  obtain ⟨body, inner, names⟩ := d
  obtain rfl : inner = _ := open_
  rw [Fixed, List.forall_mem_cons] at fixed
  refine ⟨?_, fixed.2⟩
  have node := opening.close_plant (g := g) fixed.1 openLine line body.reverse
  have closed := close_eq (opening.plant g f) (g openLine) (g line) (plantAll g f body)
    (plantAll g f before) (around.map (Enclosing.plant g f)) names
  rw [← plantAll_reverse, node, opening.construct_plant] at closed
  exact closed

theorem plant_add {directive : Directive} (fixed : d.Fixed f)
    (new : ∀ name, directive = .openBlock name → f name = none)
    (added : d.add line directive = .ok e) :
    (d.plant g f).add (g line) directive = .ok (e.plant g f) ∧ e.Fixed f := by
  cases directive with
  | text s =>
      obtain ⟨body, same⟩ := d.around_pushText line s
      rw [← Except.ok.inj added]
      refine ⟨congrArg Except.ok (d.plant_pushText line s), ?_⟩
      rw [Fixed, same]
      exact fixed
  | output | call =>
      rw [← Except.ok.inj added]
      exact ⟨rfl, fixed⟩
  | openIf condition =>
      rw [← Except.ok.inj added]
      exact ⟨rfl, List.forall_mem_cons.2 ⟨nofun, fixed⟩⟩
  | openFor item collection =>
      rw [← Except.ok.inj added]
      exact ⟨rfl, List.forall_mem_cons.2 ⟨nofun, fixed⟩⟩
  | openBlock name =>
      obtain ⟨unused, rfl⟩ := eq_of_openBlock added
      refine ⟨if_neg unused, List.forall_mem_cons.2 ⟨?_, fixed⟩⟩
      rintro _ ⟨⟩
      exact new name rfl
  | orElse =>
      obtain ⟨condition, openLine, before, around, open_, rfl⟩ := eq_of_orElse added
      obtain ⟨body, inner, names⟩ := d
      obtain rfl : inner = _ := open_
      rw [Fixed, List.forall_mem_cons] at fixed
      refine ⟨?_, List.forall_mem_cons.2 ⟨nofun, fixed.2⟩⟩
      simp only [add, orElse, plant, List.map_cons, Enclosing.plant, Opening.plant,
        plantAll_reverse, plantAll]
  | closeIf | closeFor => exact plant_close fixed added
  | closeBlock label =>
      obtain ⟨name, openLine, before, around, open_, named, rfl⟩ := eq_of_closeBlock added
      have closed : d.close line .block = .ok ⟨.block openLine name d.body.reverse line :: before,
          around, d.names⟩ := by
        rw [close, open_]
        rfl
      obtain ⟨planted, fixed'⟩ := plant_close (g := g) fixed closed
      refine ⟨?_, fixed'⟩
      obtain ⟨body, inner, names⟩ := d
      obtain rfl : inner = _ := open_
      exact (if_pos named).trans planted

end Draft

theorem Draft.Adds.plant {d e : Draft} {ds : List (Nat × Directive)} (adds : Adds d ds e)
    (fixed : d.Fixed f) (new : ∀ name ∈ openedBlocks ds, f name = none) (g : Nat → Nat) :
    Adds (d.plant g f) (onLines g ds) (e.plant g f) ∧ e.Fixed f := by
  induction adds with
  | done d => exact ⟨.done _, fixed⟩
  | @next d e _ line directive rest added _ ih =>
      have cons : openedBlocks ((line, directive) :: rest) =
          openedBlocks [(line, directive)] ++ openedBlocks rest := openedBlocks_append [_] rest
      rw [cons, List.forall_mem_append] at new
      have own : ∀ name, directive = .openBlock name → f name = none := by
        rintro name rfl
        exact new.1 name List.mem_cons_self
      obtain ⟨planted, fixed'⟩ := Draft.plant_add (g := g) fixed own added
      obtain ⟨rest, fixed''⟩ := ih fixed' new.2
      exact ⟨.next planted rest, fixed''⟩

/-! ## Names -/

namespace Draft

variable {d e : Draft} {line : Nat} {names : List String}

/-- A draft with other names of blocks. -/
def named (names : List String) (d : Draft) : Draft :=
  { d with names := names }

theorem named_pushText (names : List String) (d : Draft) (line : Nat) (s : String) :
    (d.named names).pushText line s = (d.pushText line s).named names := by
  obtain ⟨body, around, _⟩ := d
  cases body with
  | nil => rfl
  | cons node rest => cases node <;> rfl

theorem named_close {construct : Construct} (closed : d.close line construct = .ok e) :
    (d.named names).close line construct = .ok (e.named names) := by
  obtain ⟨opening, openLine, before, around, open_, rfl, rfl⟩ := eq_of_close closed
  obtain ⟨body, inner, _⟩ := d
  obtain rfl : inner = _ := open_
  exact close_eq ..

/-- What a draft makes of a directive depends on its names only where a block is opened. -/
theorem named_add {directive : Directive}
    (new : ∀ name ∈ openedBlocks [(line, directive)], name ∉ names)
    (added : d.add line directive = .ok e) :
    (d.named names).add line directive =
      .ok (e.named (openedBlocks [(line, directive)] ++ names)) := by
  cases directive with
  | text s =>
      rw [← Except.ok.inj added]
      exact congrArg Except.ok (named_pushText names d line s)
  | output | call | openIf | openFor =>
      rw [← Except.ok.inj added]
      rfl
  | openBlock name =>
      obtain ⟨-, rfl⟩ := eq_of_openBlock added
      exact if_neg (new name List.mem_cons_self)
  | orElse =>
      obtain ⟨condition, openLine, before, around, open_, rfl⟩ := eq_of_orElse added
      simp only [add, orElse, named, open_]
      rfl
  | closeIf | closeFor => exact named_close added
  | closeBlock label =>
      obtain ⟨name, openLine, before, around, open_, label, rfl⟩ := eq_of_closeBlock added
      obtain ⟨body, inner, _⟩ := d
      obtain rfl : inner = _ := open_
      exact (if_pos label).trans (close_eq (.block name) ..)

/-- Drafts that differ in their names alone make the same nodes of the same directives. -/
theorem Adds.same_tree {d d' e e' : Draft} {ds : List (Nat × Directive)} (adds : Adds d ds e)
    (adds' : Adds d' ds e') (body : d.body = d'.body) (around : d.around = d'.around) :
    e.body = e'.body ∧ e.around = e'.around := by
  induction adds generalizing d' with
  | done =>
      cases adds'
      exact ⟨body, around⟩
  | @next d e _ line directive rest added _ ih =>
      cases adds' with
      | @next _ e' _ _ _ _ added' rest =>
          -- The first draft with the names of the second is the second.
          have renamed : d.named d'.names = d' := by
            obtain ⟨_, _, _⟩ := d'
            obtain rfl : d.body = _ := body
            obtain rfl : d.around = _ := around
            rfl
          have new : ∀ name ∈ openedBlocks [(line, directive)], name ∉ d'.names := by
            rcases names_of_add added' with ⟨none, -⟩ | ⟨name, one, new, -⟩
            · rw [none]
              nofun
            · rw [one]
              exact List.forall_mem_singleton.2 new
          have again := named_add new added
          rw [renamed, added'] at again
          have next := Except.ok.inj again
          have body' : e.body = e'.body := by rw [next]; rfl
          have around' : e.around = e'.around := by rw [next]; rfl
          exact ih rest body' around'

end Draft

end BraceTemplate
