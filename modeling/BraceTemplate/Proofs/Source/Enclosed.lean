/-
# BraceTemplate.Proofs.Source.Enclosed — source texts with a block in them

`withBlock front name body back` is a source text with a block between two other texts. The
`{%endblock%}` behind the body closes this block (`Encloses`) if it begins a section and every
construct that the body opens is closed in it (`Balanced`): brackets match by how deep they stand,
whatever they are called.

* `Adds.inside`: what a draft makes of balanced directives within a block, it makes of them alone;
* `consists_withBlock`: a text with a block has the directives of its parts, on other lines.
-/
import BraceTemplate.Proofs.Source.Acceptance
import BraceTemplate.Proofs.Source.Planting
import BraceTemplate.Proofs.Text.Padding

namespace BraceTemplate

set_option autoImplicit false

open Text
open Draft (Adds)

/-! ## How deep directives stand -/

/-- How many constructs are open behind a directive, given how many are open in front of it; none
may be closed that is not open. -/
def Directive.depthBehind (depth : Nat) : Directive → Option Nat
  | .openIf _ | .openFor _ _ | .openBlock _ => some (depth + 1)
  | .closeIf | .closeFor | .closeBlock _ => if depth = 0 then none else some (depth - 1)
  | .text _ | .output _ | .call _ _ | .orElse => some depth

/-- How many constructs are open behind directives in a row. -/
def depthBehind (depth : Nat) : List (Nat × Directive) → Option Nat
  | [] => some depth
  | (_, directive) :: rest =>
      match directive.depthBehind depth with
      | some depth => depthBehind depth rest
      | none => none

/-- The directives close what they open, and nothing else. -/
def Balanced (ds : List (Nat × Directive)) : Prop :=
  depthBehind 0 ds = some 0

theorem depthBehind_onLines (g : Nat → Nat) (depth : Nat) (ds : List (Nat × Directive)) :
    depthBehind depth (onLines g ds) = depthBehind depth ds := by
  induction ds generalizing depth with
  | nil => rfl
  | cons entry ds ih =>
      rw [onLines, List.map_cons, depthBehind, depthBehind]
      cases entry.2.depthBehind depth with
      | none => rfl
      | some depth => exact ih depth

/-- Whole items leave open what was open. -/
theorem Items.depthBehind_append {ds : List (Nat × Directive)} (items : Items ds) (depth : Nat)
    (rest : List (Nat × Directive)) : depthBehind depth (ds ++ rest) = depthBehind depth rest := by
  induction items generalizing depth rest with
  | done => rfl
  | text _ ih | output _ ih | call _ ih => exact ih depth rest
  | ifThen _ _ ihYes ihRest | loop _ _ ihYes ihRest | block _ _ _ ihYes ihRest =>
      rw [List.cons_append, List.append_assoc]
      exact (ihYes (depth + 1) _).trans (ihRest depth rest)
  | ifElse _ _ _ ihYes ihNo ihRest =>
      rw [List.cons_append, List.append_assoc, List.cons_append, List.append_assoc]
      exact (ihYes (depth + 1) _).trans ((ihNo (depth + 1) _).trans (ihRest depth rest))

theorem Items.balanced {ds : List (Nat × Directive)} (items : Items ds) : Balanced ds := by
  have whole := items.depthBehind_append 0 []
  rwa [List.append_nil] at whole

namespace Draft

variable {d e : Draft} {line depth : Nat} {frame : Enclosing} {inner outer : List Enclosing}

/-- Closing a construct inside a block is closing it without the block. -/
theorem close_inside {construct : Construct} (open_ : d.around = inner ++ frame :: outer)
    (level : (if inner.length = 0 then none else some (inner.length - 1)) = some depth)
    (closed : d.close line construct = .ok e) :
    ∃ inner', e.around = inner' ++ frame :: outer ∧ inner'.length = depth ∧
      close ⟨d.body, inner, d.names⟩ line construct = .ok ⟨e.body, inner', e.names⟩ := by
  cases inner with
  | nil => cases level
  | cons enclosing inner =>
      obtain ⟨opening, openLine, before, around, open', same, rfl⟩ := eq_of_close closed
      obtain ⟨rfl, rfl⟩ := List.cons.inj (open_.symm.trans open')
      exact ⟨inner, rfl, Option.some.inj level, if_pos same⟩

/-- What a draft makes of a directive inside a block, it makes of it without the block. -/
theorem add_inside {directive : Directive} (block : frame.opening.construct = .block)
    (open_ : d.around = inner ++ frame :: outer)
    (level : directive.depthBehind inner.length = some depth)
    (added : d.add line directive = .ok e) :
    ∃ inner', e.around = inner' ++ frame :: outer ∧ inner'.length = depth ∧
      add ⟨d.body, inner, d.names⟩ line directive = .ok ⟨e.body, inner', e.names⟩ := by
  obtain ⟨body, around, names⟩ := d
  obtain rfl : around = _ := open_
  cases directive with
  | text s =>
      have added := Except.ok.inj added
      obtain rfl := Option.some.inj level
      cases body with
      | nil =>
          rw [← added]
          exact ⟨inner, rfl, rfl, rfl⟩
      | cons node rest =>
          cases node <;> (rw [← added]; exact ⟨inner, rfl, rfl, rfl⟩)
  | output | call =>
      rw [← Except.ok.inj added]
      obtain rfl := Option.some.inj level
      exact ⟨inner, rfl, rfl, rfl⟩
  | openIf | openFor =>
      rw [← Except.ok.inj added]
      obtain rfl := Option.some.inj level
      exact ⟨_ :: inner, rfl, rfl, rfl⟩
  | openBlock name =>
      obtain ⟨unused, rfl⟩ := eq_of_openBlock added
      obtain rfl := Option.some.inj level
      exact ⟨_ :: inner, rfl, rfl, if_neg unused⟩
  | orElse =>
      obtain rfl := Option.some.inj level
      obtain ⟨condition, openLine, before, around, open', rfl⟩ := eq_of_orElse added
      cases inner with
      -- The innermost construct would be the block, which has no `else`.
      | nil =>
          obtain ⟨rfl, -⟩ := List.cons.inj open'
          cases block
      | cons enclosing inner =>
          obtain ⟨rfl, rfl⟩ := List.cons.inj open'
          exact ⟨_ :: inner, rfl, rfl, rfl⟩
  | closeIf | closeFor => exact close_inside rfl level added
  | closeBlock label =>
      obtain ⟨name, openLine, before, around, open', named, rfl⟩ := eq_of_closeBlock added
      cases inner with
      | nil => cases level
      | cons enclosing inner =>
          obtain ⟨rfl, rfl⟩ := List.cons.inj open'
          exact ⟨inner, rfl, Option.some.inj level,
            (if_pos named).trans (close_eq (.block name) ..)⟩

/-- What a draft makes of directives inside a block, it makes of them without the block. -/
theorem Adds.inside {ds : List (Nat × Directive)} (block : frame.opening.construct = .block)
    (open_ : d.around = inner ++ frame :: outer) (level : depthBehind inner.length ds = some depth)
    (adds : Adds d ds e) :
    ∃ inner', e.around = inner' ++ frame :: outer ∧ inner'.length = depth ∧
      Adds ⟨d.body, inner, d.names⟩ ds ⟨e.body, inner', e.names⟩ := by
  induction adds generalizing inner with
  | done d => exact ⟨inner, open_, Option.some.inj level, .done _⟩
  | next added _ ih =>
      rw [depthBehind] at level
      split at level
      · rename_i depth' first
        obtain ⟨inner', open', rfl, added⟩ := add_inside block open_ first added
        obtain ⟨inner'', open'', same, rest⟩ := ih open' level
        exact ⟨inner'', open'', same, .next added rest⟩
      · cases level

end Draft

/-! ## The directives of source texts -/

/-- A source text consists of pieces, and these ask for directives. -/
def Consists (s : List Char) (ds : List (Nat × Directive)) : Prop :=
  ∃ pieces, Pieces 1 s pieces ∧ Reads ClosedRow pieces ds

theorem Asks.unique {s : Section} {asked asked' : Option Directive}
    (asks : Asks ClosedRow s asked) (asks' : Asks ClosedRow s asked') : asked = asked' := by
  rw [← Directive.ofSection_eq_ok_iff] at asks asks'
  exact Except.ok.inj (asks.symm.trans asks')

namespace Reads

variable {pieces : List (Nat × Section)} {ds ds' : List (Nat × Directive)}

theorem unique (reads : Reads ClosedRow pieces ds) (reads' : Reads ClosedRow pieces ds') :
    ds = ds' := by
  induction reads generalizing ds' with
  | done =>
      cases reads'
      rfl
  | directive asks _ ih =>
      cases reads' with
      | directive asks' reads' =>
          obtain rfl := Option.some.inj (asks.unique asks')
          rw [ih reads']
      | nothing asks' => cases asks.unique asks'
  | nothing asks _ ih =>
      cases reads' with
      | directive asks' => cases asks.unique asks'
      | nothing _ reads' => exact ih reads'

theorem onLines (reads : Reads ClosedRow pieces ds) (g : Nat → Nat) :
    Reads ClosedRow (onLines g pieces) (onLines g ds) := by
  induction reads with
  | done => exact .done
  | directive asks _ ih => exact .directive asks ih
  | nothing asks _ ih => exact .nothing asks ih

end Reads

/-- Pieces that can each be read can be read in a row. -/
theorem exists_reads {pieces : List (Nat × Section)}
    (all : ∀ piece ∈ pieces, ∃ asked, Asks ClosedRow piece.2 asked) :
    ∃ ds, Reads ClosedRow pieces ds := by
  induction pieces with
  | nil => exact ⟨[], .done⟩
  | cons piece pieces ih =>
      rw [List.forall_mem_cons] at all
      obtain ⟨⟨asked, asks⟩, all⟩ := all
      obtain ⟨ds, reads⟩ := ih all
      cases asked with
      | none => exact ⟨ds, .nothing asks reads⟩
      | some directive => exact ⟨_, .directive asks reads⟩

/-- The tree of a source text is what a draft makes of its directives. -/
theorem Consists.ofSource_eq_ok_iff {source : List Char} {ds : List (Nat × Directive)}
    {nodes : List Node} (consists : Consists source ds) :
    Node.ofSource source = .ok nodes ↔
      ∃ d, Adds Draft.empty ds d ∧ d.around = [] ∧ nodes = d.body.reverse := by
  obtain ⟨pieces, whole, reads⟩ := consists
  constructor
  · intro tree
    obtain ⟨pieces', d, whole', taken, closed, same⟩ := exists_draft tree
    obtain rfl : pieces = pieces' := whole.sections_eq.symm.trans whole'.sections_eq
    obtain ⟨ds', reads', adds⟩ := Draft.addAll_eq_ok_iff.1 taken
    obtain rfl := reads.unique reads'
    exact ⟨d, adds, closed, same⟩
  · rintro ⟨⟨body, around, names⟩, adds, rfl, rfl⟩
    have taken := Draft.addAll_eq_ok_iff.2 ⟨ds, reads, adds⟩
    rw [Node.ofSource, Section.ofSource, whole.sections_eq, taken]
    rfl

/-- A text that has a tree consists of directives. -/
theorem exists_consists {source : List Char} {nodes : List Node}
    (tree : Node.ofSource source = .ok nodes) : ∃ ds, Consists source ds := by
  obtain ⟨pieces, d, whole, taken, -⟩ := exists_draft tree
  obtain ⟨ds, reads, -⟩ := Draft.addAll_eq_ok_iff.1 taken
  exact ⟨ds, pieces, whole, reads⟩

/-! ## A block between two texts -/

/-- A source text with a block in it. -/
def withBlock (front name body back : String) : String :=
  front ++ "\x7b%block " ++ name ++ "%\x7d" ++ body ++ "\x7b%endblock%\x7d" ++ back

/-- The `{%block …%}` between two texts begins a section, and the `{%endblock%}` behind them closes
this block. -/
def Encloses (front body : String) : Prop :=
  Outside front.toList ∧ ∃ ds, Consists body.toList ds ∧ Balanced ds

/-- What stands between the braces where a block begins. -/
def openingOf (name : List Char) : List Char :=
  '%' :: ("block ".toList ++ name ++ ['%'])

/-- What stands between the braces where a block ends. -/
def ending : List Char :=
  "%endblock%".toList

theorem toList_withBlock (front name body back : String) :
    (withBlock front name body back).toList =
      front.toList ++ '{' :: (openingOf name.toList ++ '}' ::
        (body.toList ++ '{' :: (ending ++ '}' :: back.toList))) := by
  have opens : "\x7b%block ".toList = '{' :: '%' :: "block ".toList := by decide
  have closes : "%\x7d".toList = ['%', '}'] := by decide
  have ends : "\x7b%endblock%\x7d".toList = '{' :: (ending ++ ['}']) := by decide
  simp only [withBlock, openingOf, String.toList_append, opens, closes, ends, List.append_assoc,
    List.cons_append, List.nil_append]

/-- A text between percent signs is an action. -/
theorem ofContents_action (s : List Char) :
    Section.ofContents ('%' :: (s ++ ['%'])) = .action (trim s) := by
  have whole : trim ('%' :: (s ++ ['%'])) = '%' :: (s ++ ['%']) :=
    (Solid.between (by decide) (by decide) s).trim_eq
  have cut : Section.dropPercent (s ++ ['%']) = s := by
    rw [Section.dropPercent, List.getLast?_concat, if_pos rfl, List.dropLast_concat]
  rw [Section.ofContents, whole]
  simp only [cut]

theorem asks_opening {name : String} (valid : isName name.toList = true) :
    Asks ClosedRow (.ofContents (openingOf name.toList)) (some (.openBlock name)) := by
  have solid := solid_of_isName valid
  have words : Words ("block ".toList ++ name.toList) "block".toList name.toList :=
    ⟨(Words.alone (by decide)).1, .inr ⟨' ', name.toList, by decide, rfl, solid.trim_eq.symm⟩⟩
  have action : Section.ofContents (openingOf name.toList) =
      .action ("block ".toList ++ name.toList) := by
    have first : ∀ c ∈ "block ".toList.head?, isBlank c = false := by
      rintro c ⟨⟩
      decide
    rw [openingOf, ofContents_action,
      trim_append (by decide) first (ne_nil_of_isName valid) solid.1, solid.trim_eq]
  have asks : Asks ClosedRow (.action ("block ".toList ++ name.toList)) _ :=
    .action (.openBlock words valid)
  rwa [String.ofList_toList, ← action] at asks

theorem asks_ending : Asks ClosedRow (.ofContents ending) (some (.closeBlock "")) :=
  .action (.closeBlock (.alone (by decide)))

/-- The opening of a block neither ends its section early nor its line. -/
theorem not_mem_openingOf {name : List Char} (valid : isName name = true) :
    '}' ∉ openingOf name ∧ '\n' ∉ openingOf name := by
  have brace : '}' ∉ name := not_mem_of_isName valid (by decide)
  have newline : '\n' ∉ name := not_mem_of_isName valid (by decide)
  simp [openingOf, brace, newline]

/-! ## A section between two texts -/

section

variable {front contents back : List Char}

theorem Pieces.between {pF pQ : List (Nat × Section)} (outside : Pieces 1 front pF)
    (closed : '}' ∉ contents) (inLine : '\n' ∉ contents) (behind : Pieces 1 back pQ) :
    Pieces 1 (front ++ '{' :: (contents ++ '}' :: back))
      (pF ++ (1 + front.count '\n', .ofContents contents) ::
        onLines (· + front.count '\n') pQ) :=
  outside.append (.inr ⟨_, rfl⟩) (.braces closed inLine (behind.shift _))

/-- Where a text with a section in it consists of pieces, so does what stands behind the section. -/
theorem Pieces.behind_section {pieces pF : List (Nat × Section)} (outside : Pieces 1 front pF)
    (closed : '}' ∉ contents) (inLine : '\n' ∉ contents)
    (whole : Pieces 1 (front ++ '{' :: (contents ++ '}' :: back)) pieces) :
    ∃ pQ, Pieces 1 back pQ := by
  rcases pieces_or_open 1 back with found | ⟨before, after, pB, rfl, upTo, unclosed⟩
  · exact found
  -- Otherwise the first `{` left open behind the section is one of the whole text.
  · have upTo' := outside.between closed inLine upTo
    have shape : front ++ '{' :: (contents ++ '}' :: (before ++ '{' :: after)) =
        (front ++ '{' :: (contents ++ '}' :: before)) ++ '{' :: after := by simp
    rw [shape] at whole
    exact absurd (whole.closed upTo') unclosed

theorem Consists.between {directive : Directive} {dF dQ : List (Nat × Directive)}
    (consists : Consists front dF) (closed : '}' ∉ contents) (inLine : '\n' ∉ contents)
    (asks : Asks ClosedRow (.ofContents contents) (some directive)) (behind : Consists back dQ) :
    Consists (front ++ '{' :: (contents ++ '}' :: back))
      (dF ++ (1 + front.count '\n', directive) :: onLines (· + front.count '\n') dQ) := by
  obtain ⟨pF, outside, reads⟩ := consists
  obtain ⟨pQ, rest, reads'⟩ := behind
  exact ⟨_, outside.between closed inLine rest, reads.append (.directive asks (reads'.onLines _))⟩

/-- Where a text with a section in it consists of directives, so do the texts around the section. -/
theorem Consists.around_section {ds : List (Nat × Directive)} (outside : Outside front)
    (closed : '}' ∉ contents) (inLine : '\n' ∉ contents)
    (consists : Consists (front ++ '{' :: (contents ++ '}' :: back)) ds) :
    (∃ dF, Consists front dF) ∧ ∃ dQ, Consists back dQ := by
  obtain ⟨pF, outside⟩ := outside
  obtain ⟨pieces, whole, reads⟩ := consists
  obtain ⟨pQ, behind⟩ := outside.behind_section closed inLine whole
  obtain rfl := whole.sections_eq.symm.trans (outside.between closed inLine behind).sections_eq
  have all := reads.exists_asks
  rw [List.forall_mem_append, List.forall_mem_cons] at all
  obtain ⟨dF, readsFront⟩ := exists_reads all.1
  have later : ∀ piece ∈ pQ, ∃ asked, Asks ClosedRow piece.2 asked :=
    fun piece mem => all.2.2 (piece.1 + _, piece.2) (List.mem_map.2 ⟨piece, mem, rfl⟩)
  obtain ⟨dQ, readsBack⟩ := exists_reads later
  exact ⟨⟨dF, pF, outside, readsFront⟩, dQ, pQ, behind, readsBack⟩

end

section

variable {front name body back : String} {dF dB dQ : List (Nat × Directive)}

/-- The directives of a text with a block in it. -/
theorem consists_withBlock (valid : isName name.toList = true) (first : Consists front.toList dF)
    (inside : Consists body.toList dB) (behind : Consists back.toList dQ) :
    Consists (withBlock front name body back).toList
      (dF ++ (1 + front.toList.count '\n', .openBlock name) ::
        onLines (· + front.toList.count '\n')
          (dB ++ (1 + body.toList.count '\n', .closeBlock "") ::
            onLines (· + body.toList.count '\n') dQ)) := by
  obtain ⟨closed, inLine⟩ := not_mem_openingOf valid
  rw [toList_withBlock]
  exact first.between closed inLine (asks_opening valid)
    (inside.between (by decide) (by decide) asks_ending behind)

/-- A text that is a template by itself is enclosed wherever a section can begin. -/
theorem Encloses.of_ofSource {nodes : List Node} (outside : Outside front.toList)
    (tree : Node.ofSource body.toList = .ok nodes) : Encloses front body := by
  obtain ⟨ds, consists⟩ := exists_consists tree
  obtain ⟨d, adds, closed, -⟩ := consists.ofSource_eq_ok_iff.1 tree
  exact ⟨outside, ds, consists, (adds.items closed).1.balanced⟩

/-- What stands around the block consists of directives if the whole text has a tree. -/
theorem consists_around {nodes : List Node} (valid : isName name.toList = true)
    (outside : Outside front.toList) (inside : Consists body.toList dB)
    (tree : Node.ofSource (withBlock front name body back).toList = .ok nodes) :
    (∃ dF, Consists front.toList dF) ∧ ∃ dQ, Consists back.toList dQ := by
  obtain ⟨closed, inLine⟩ := not_mem_openingOf valid
  obtain ⟨ds, consists⟩ := exists_consists tree
  rw [toList_withBlock] at consists
  obtain ⟨first, dR, rest⟩ := Consists.around_section outside closed inLine consists
  obtain ⟨pB, inside, -⟩ := inside
  exact ⟨first, (rest.around_section ⟨pB, inside⟩ (by decide) (by decide)).2⟩

end

end BraceTemplate
