/-
# BraceTemplate.Proofs.Source.Transcript — a tree read as a row of directives

`directivesAll nodes` reads a tree back: the directives of its nodes in order, each with its line,
without the labels at the ends of blocks. A draft grows this row at its end. A directive becomes its
last entry, and text becomes part of the last entry if that is text (`Draft.written_add`), so

* `directivesAll_of_ofSource`: the tree of a source reads as the directives of the source, joined;
* `tidy_of_ofSource`: no text in this row is empty or next to another text, its lines never
  decrease, and its blocks have distinct names.
-/
import Mathlib.Data.List.Chain
import BraceTemplate.Proofs.Source.Acceptance

namespace BraceTemplate

set_option autoImplicit false

mutual

/-- The directives that write a node. -/
def Node.directives : Node → List (Nat × Directive)
  | .text line s => [(line, .text s)]
  | .output line expr => [(line, .output expr)]
  | .call line name arguments => [(line, .call name arguments)]
  | .ifThen line condition yes endLine =>
      (line, .openIf condition) :: (directivesAll yes ++ [(endLine, .closeIf)])
  | .ifElse line condition yes elseLine no endLine =>
      (line, .openIf condition) ::
        (directivesAll yes ++ (elseLine, .orElse) :: (directivesAll no ++ [(endLine, .closeIf)]))
  | .loop line item collection body endLine =>
      (line, .openFor item collection) :: (directivesAll body ++ [(endLine, .closeFor)])
  | .block line name body endLine =>
      (line, .openBlock name) :: (directivesAll body ++ [(endLine, .closeBlock "")])

/-- The directives that write nodes in a row. -/
def directivesAll : List Node → List (Nat × Directive)
  | [] => []
  | node :: rest => node.directives ++ directivesAll rest

end

/-- The directives that have opened a construct so far. -/
def Opening.directives (line : Nat) : Opening → List (Nat × Directive)
  | .ifThen condition => [(line, .openIf condition)]
  | .ifElse condition yes elseLine =>
      (line, .openIf condition) :: (directivesAll yes ++ [(elseLine, .orElse)])
  | .loop item collection => [(line, .openFor item collection)]
  | .block name => [(line, .openBlock name)]

/-- The directives in front of the innermost open construct's nodes. -/
def directivesAround : List Enclosing → List (Nat × Directive)
  | [] => []
  | e :: around =>
      directivesAround around ++ directivesAll e.before.reverse ++ e.opening.directives e.line

/-- The directives that a draft has written so far. -/
def Draft.written (d : Draft) : List (Nat × Directive) :=
  directivesAround d.around ++ directivesAll d.body.reverse

/-- Adds a directive at the end of a row: text to a text that stands there, and a label is lost. -/
def joinTo (row : List (Nat × Directive)) (line : Nat) : Directive → List (Nat × Directive)
  | .text s =>
      match row.getLast? with
      | some (first, .text before) => row.dropLast ++ [(first, .text (before ++ s))]
      | _ => row ++ [(line, .text s)]
  | .closeBlock _ => row ++ [(line, .closeBlock "")]
  | d => row ++ [(line, d)]

/-- A row of directives without labels and with one text for texts next to each other. -/
def joined (ds : List (Nat × Directive)) : List (Nat × Directive) :=
  ds.foldl (fun row entry => joinTo row entry.1 entry.2) []

/-! ## What a draft has written -/

theorem directivesAll_append (first second : List Node) :
    directivesAll (first ++ second) = directivesAll first ++ directivesAll second := by
  induction first with
  | nil => rfl
  | cons node first ih => rw [List.cons_append, directivesAll, ih, directivesAll, List.append_assoc]

theorem directivesAll_single (node : Node) : directivesAll [node] = node.directives := by
  rw [directivesAll, directivesAll, List.append_nil]

/-- A closed construct is written as its opening, its nodes and the directive that closes it. -/
theorem Opening.directives_close (opening : Opening) (line endLine : Nat) (body : List Node) :
    (opening.close line body endLine).directives =
      opening.directives line ++ directivesAll body ++ [(endLine, opening.closing)] := by
  cases opening <;>
    simp [close, Node.directives, directives, closing, List.append_assoc]

namespace Draft

variable {d e : Draft} {line : Nat}

theorem written_push (d : Draft) (node : Node) :
    (d.push node).written = d.written ++ node.directives := by
  rw [written, push, List.reverse_cons, directivesAll_append, directivesAll_single,
    ← List.append_assoc]
  rfl

theorem written_begin (d : Draft) (line : Nat) (opening : Opening) :
    (d.begin line opening).written = d.written ++ opening.directives line := by
  rw [written, begin, directivesAround, List.reverse_nil, directivesAll, List.append_nil]
  rfl

theorem written_close {construct : Construct} (closed : d.close line construct = .ok e) :
    ∃ opening : Opening, opening.construct = construct ∧
      e.written = d.written ++ [(line, opening.closing)] := by
  obtain ⟨opening, openLine, before, around, open_, same, rfl⟩ := eq_of_close closed
  refine ⟨opening, same, ?_⟩
  simp only [written, open_, directivesAround, List.reverse_cons, directivesAll_append,
    directivesAll_single, opening.directives_close, List.append_assoc]

/-- Text is the last entry that was written only if it is the last node. -/
theorem body_of_getLast?_written {first : Nat} {before : String}
    (last : d.written.getLast? = some (first, .text before)) :
    ∃ rest, d.body = .text first before :: rest := by
  rw [written, List.getLast?_append] at last
  cases body : d.body with
  | nil =>
      rw [body] at last
      cases around : d.around with
      | nil =>
          rw [around] at last
          cases last
      | cons e around' =>
          obtain ⟨opening, openLine, nodes⟩ := e
          rw [around] at last
          cases opening <;> simp [directivesAround, Opening.directives, directivesAll,
            List.getLast?_cons] at last
  | cons node rest =>
      rw [body, List.reverse_cons, directivesAll_append, directivesAll_single,
        List.getLast?_append] at last
      cases node <;> simp [Node.directives, List.getLast?_cons, List.getLast?_append] at last
      obtain ⟨rfl, rfl⟩ := last
      exact ⟨rest, rfl⟩

theorem written_pushText (d : Draft) (line : Nat) (s : String) :
    (d.pushText line s).written = joinTo d.written line (.text s) := by
  rw [pushText, joinTo]
  split
  · rename_i first before rest body
    have shape : d.written =
        (directivesAround d.around ++ directivesAll rest.reverse) ++ [(first, .text before)] := by
      rw [written, body, List.reverse_cons, directivesAll_append, directivesAll_single,
        ← List.append_assoc]
      rfl
    rw [shape, List.getLast?_concat, List.dropLast_concat]
    simp only [written, List.reverse_cons, directivesAll_append, directivesAll_single,
      Node.directives, List.append_assoc]
  · rename_i noText
    have same := d.written_push (.text line s)
    split
    · rename_i first before last
      obtain ⟨rest, body⟩ := body_of_getLast?_written last
      exact absurd body (noText first before rest)
    · exact same

/-- A draft grows its row at the end. -/
theorem written_add {directive : Directive} (added : d.add line directive = .ok e) :
    e.written = joinTo d.written line directive := by
  cases directive with
  | text s =>
      rw [← Except.ok.inj added]
      exact written_pushText d line s
  | output expr =>
      rw [← Except.ok.inj added]
      exact written_push d _
  | call name arguments =>
      rw [← Except.ok.inj added]
      exact written_push d _
  | openIf condition =>
      rw [← Except.ok.inj added]
      exact written_begin d line _
  | openFor item collection =>
      rw [← Except.ok.inj added]
      exact written_begin d line _
  | openBlock name =>
      rw [(eq_of_openBlock added).2]
      exact written_begin d line (.block name)
  | orElse =>
      obtain ⟨condition, openLine, before, around, open_, rfl⟩ := eq_of_orElse added
      simp [written, open_, directivesAround, Opening.directives, joinTo, directivesAll]
  | closeIf =>
      obtain ⟨opening, same, written⟩ := written_close added
      cases opening with
      | ifThen | ifElse => exact written
      | loop | block => cases same
  | closeFor =>
      obtain ⟨opening, same, written⟩ := written_close added
      cases opening with
      | loop => exact written
      | ifThen | ifElse | block => cases same
  | closeBlock label =>
      obtain ⟨name, openLine, before, around, open_, -, rfl⟩ := eq_of_closeBlock added
      have node := (Opening.block name).directives_close openLine line d.body.reverse
      simp only [Opening.close, Opening.closing] at node
      simp only [written, open_, directivesAround, List.reverse_cons, directivesAll_append,
        directivesAll_single, node, joinTo, List.append_assoc]

theorem Adds.written {ds : List (Nat × Directive)} (adds : Adds d ds e) :
    e.written = ds.foldl (fun row entry => joinTo row entry.1 entry.2) d.written := by
  induction adds with
  | done => rfl
  | next added _ ih => rw [ih, written_add added, List.foldl_cons]

end Draft

/-- The tree of a source text reads as the directives of its pieces, joined. -/
theorem directivesAll_of_ofSource {source : List Char} {nodes : List Node}
    (tree : Node.ofSource source = .ok nodes) :
    ∃ pieces ds, Pieces 1 source pieces ∧ Reads ClosedRow pieces ds ∧ (openedBlocks ds).Nodup ∧
      directivesAll nodes = joined ds := by
  obtain ⟨pieces, d, whole, taken, closed, rfl⟩ := exists_draft tree
  obtain ⟨ds, reads, adds⟩ := Draft.addAll_eq_ok_iff.1 taken
  refine ⟨pieces, ds, whole, reads, adds.from_empty.2, ?_⟩
  have written := adds.written
  rw [Draft.written, closed] at written
  exact written

/-! ## Tidy rows -/

/-- A directive is text. -/
def Directive.IsText (d : Directive) : Prop :=
  ∃ s, d = .text s

/-- No text in a row is empty or next to another text, and its lines never decrease. -/
structure Tidy (row : List (Nat × Directive)) : Prop where
  nonempty : ∀ entry ∈ row, entry.2 ≠ .text ""
  apart : row.IsChain fun a b => ¬ (a.2.IsText ∧ b.2.IsText)
  ascending : row.Pairwise fun a b => a.1 ≤ b.1

/-- Text becomes part of a text that comes last; any other directive comes last itself. -/
theorem joinTo_cases (row : List (Nat × Directive)) (line : Nat) (d : Directive) :
    (∃ front first before s, d = .text s ∧ row = front ++ [(first, .text before)] ∧
        joinTo row line d = front ++ [(first, .text (before ++ s))]) ∨
      ∃ last, joinTo row line d = row ++ [(line, last)] ∧ (last = d ∨ last = .closeBlock "") ∧
        openedBlocks [(line, last)] = openedBlocks [(line, d)] ∧
        (last.IsText → ∀ entry ∈ row.getLast?, ¬ entry.2.IsText) := by
  cases d with
  | text s =>
      rw [joinTo]
      split
      · rename_i first before last
        obtain ⟨front, rfl⟩ := List.getLast?_eq_some_iff.1 last
        exact .inl ⟨front, first, before, s, rfl, rfl, by rw [List.dropLast_concat]⟩
      · rename_i noText
        refine .inr ⟨_, rfl, .inl rfl, rfl, ?_⟩
        rintro - ⟨first, _⟩ last ⟨before, rfl⟩
        exact noText first before last
  | closeBlock label => exact .inr ⟨_, rfl, .inr rfl, rfl, nofun⟩
  | _ => exact .inr ⟨_, rfl, .inl rfl, rfl, nofun⟩

theorem openedBlocks_joinTo (row : List (Nat × Directive)) (line : Nat) (d : Directive) :
    openedBlocks (joinTo row line d) = openedBlocks row ++ openedBlocks [(line, d)] := by
  rcases joinTo_cases row line d with ⟨front, first, before, s, rfl, rfl, same⟩ |
    ⟨last, same, -, blocks, -⟩
  · simp [same, openedBlocks_append, openedBlocks]
  · rw [same, openedBlocks_append, blocks]

/-- Joining keeps the names of blocks. -/
theorem openedBlocks_joined (ds : List (Nat × Directive)) :
    openedBlocks (joined ds) = openedBlocks ds := by
  have from_row : ∀ row, openedBlocks (ds.foldl (fun row entry => joinTo row entry.1 entry.2) row) =
      openedBlocks row ++ openedBlocks ds := by
    induction ds with
    | nil => exact fun row => (List.append_nil _).symm
    | cons entry ds ih =>
        intro row
        rw [List.foldl_cons, ih, openedBlocks_joinTo, List.append_assoc, ← openedBlocks_append]
        rfl
  exact from_row []

/-- A later directive keeps a row tidy. -/
theorem Tidy.joinTo {row : List (Nat × Directive)} (tidy : Tidy row) {line : Nat} {d : Directive}
    (later : ∀ entry ∈ row, entry.1 ≤ line) (nonempty : d ≠ .text "") :
    Tidy (joinTo row line d) ∧ ∀ entry ∈ BraceTemplate.joinTo row line d, entry.1 ≤ line := by
  rcases joinTo_cases row line d with ⟨front, first, before, s, rfl, rfl, same⟩ |
    ⟨last, same, kept, -, apart⟩
  · rw [same]
    obtain ⟨nonempty', apart', ascending⟩ := tidy
    rw [List.forall_mem_append, List.forall_mem_singleton] at nonempty' later
    rw [List.isChain_append] at apart'
    rw [List.pairwise_append] at ascending
    refine ⟨⟨?_, ?_, ?_⟩, ?_⟩
    · rw [List.forall_mem_append, List.forall_mem_singleton]
      refine ⟨nonempty'.1, fun empty => nonempty ?_⟩
      have := Directive.text.inj empty
      simp_all
    · rw [List.isChain_append]
      refine ⟨apart'.1, .singleton _, ?_⟩
      rintro a last_ b ⟨⟩ ⟨isText, -⟩
      exact apart'.2.2 a last_ _ rfl ⟨isText, before, rfl⟩
    · rw [List.pairwise_append]
      refine ⟨ascending.1, List.pairwise_singleton _ _, ?_⟩
      intro a mem b mem'
      obtain rfl := List.mem_singleton.1 mem'
      exact ascending.2.2 a mem (first, .text before) List.mem_cons_self
    · rw [List.forall_mem_append, List.forall_mem_singleton]
      exact later
  · rw [same]
    refine ⟨⟨?_, ?_, ?_⟩, ?_⟩
    · rw [List.forall_mem_append, List.forall_mem_singleton]
      refine ⟨tidy.nonempty, ?_⟩
      rcases kept with rfl | rfl
      · exact nonempty
      · nofun
    · rw [List.isChain_append]
      refine ⟨tidy.apart, .singleton _, ?_⟩
      rintro a last_ b ⟨⟩ ⟨isText, isText'⟩
      exact apart isText' a last_ isText
    · rw [List.pairwise_append]
      refine ⟨tidy.ascending, List.pairwise_singleton _ _, ?_⟩
      intro a mem b mem'
      obtain rfl := List.mem_singleton.1 mem'
      exact later a mem
    · rw [List.forall_mem_append, List.forall_mem_singleton]
      exact ⟨later, Nat.le_refl line⟩

/-- Directives on ascending lines without empty texts make up a tidy row. -/
theorem tidy_joined {ds : List (Nat × Directive)} (nonempty : ∀ entry ∈ ds, entry.2 ≠ .text "")
    (ascending : ds.Pairwise fun a b => a.1 ≤ b.1) : Tidy (joined ds) := by
  have from_row : ∀ row, Tidy row → (∀ a ∈ row, ∀ b ∈ ds, a.1 ≤ b.1) →
      Tidy (ds.foldl (fun row entry => joinTo row entry.1 entry.2) row) := by
    induction ds with
    | nil => exact fun row tidy _ => tidy
    | cons entry ds ih =>
        intro row tidy later
        rw [List.forall_mem_cons] at nonempty
        rw [List.pairwise_cons] at ascending
        obtain ⟨tidy', later'⟩ := tidy.joinTo (fun a mem => later a mem entry List.mem_cons_self)
          nonempty.1
        refine ih nonempty.2 ascending.2 _ tidy' fun a mem b mem' => ?_
        exact Nat.le_trans (later' a mem) (ascending.1 b mem')
  exact from_row [] ⟨nofun, .nil, .nil⟩ nofun

/-- What pieces ask for stands on their lines. -/
theorem Reads.lines {pieces : List (Nat × Section)} {ds : List (Nat × Directive)}
    (reads : Reads ClosedRow pieces ds) : (ds.map Prod.fst).Sublist (pieces.map Prod.fst) := by
  induction reads with
  | done => exact .slnil
  | directive _ _ ih => exact .cons_cons _ ih
  | nothing _ _ ih => exact .cons _ ih

/-- No piece asks for an empty text. -/
theorem Reads.nonempty {pieces : List (Nat × Section)} {ds : List (Nat × Directive)}
    (reads : Reads ClosedRow pieces ds) (nonempty : ∀ piece ∈ pieces, piece.2 ≠ .text []) :
    ∀ entry ∈ ds, entry.2 ≠ .text "" := by
  induction reads with
  | done => exact nofun
  | directive asks _ ih =>
      rw [List.forall_mem_cons] at nonempty ⊢
      refine ⟨?_, ih nonempty.2⟩
      have given := nonempty.1
      cases asks with
      | text s => simpa using given
      | brace c => simp
      | output valid => nofun
      | action spelled => cases spelled <;> nofun
  | nothing _ _ ih => exact ih (List.forall_mem_cons.1 nonempty).2

/-- The tree of a source text reads as a tidy row whose blocks have distinct names. -/
theorem tidy_of_ofSource {source : List Char} {nodes : List Node}
    (tree : Node.ofSource source = .ok nodes) :
    Tidy (directivesAll nodes) ∧ (openedBlocks (directivesAll nodes)).Nodup := by
  obtain ⟨pieces, ds, whole, reads, distinct, same⟩ := directivesAll_of_ofSource tree
  rw [same, openedBlocks_joined]
  refine ⟨tidy_joined (reads.nonempty fun piece mem => (whole.sound piece mem).1) ?_, distinct⟩
  have ascending := whole.ascending.2
  rw [← List.pairwise_map] at ascending ⊢
  exact ascending.sublist reads.lines

end BraceTemplate
