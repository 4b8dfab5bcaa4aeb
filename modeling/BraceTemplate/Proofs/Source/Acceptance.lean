/-
# BraceTemplate.Proofs.Source.Acceptance — which source texts are templates

A source text is a template (`IsTemplate`) if every `{` that opens a section is closed on its line,
every section can be read, and the directives of the sections are items with distinct block names.
Sections can be the beginning of a template if some others behind them make them accepted
(`Viable`). As in `Spelled`, `AnyRow` stands for the grammar and `ClosedRow` for what is read of it.

* `viable_iff`: a draft takes exactly the rows of pieces with which a template can begin;
* `nodes_or_refusal`: a source text has a tree if it is a template of what is read; otherwise the
  first error is that of the first section which makes the row lose its viability, with the line of
  this section, or, if there is none, that of the innermost construct left open.
-/
import Mathlib
import BraceTemplate.Proofs.Source.Grammar
import BraceTemplate.Proofs.Source.Pieces
import BraceTemplate.Template

namespace BraceTemplate

set_option autoImplicit false

open CompileError (Kind)
open Draft (Adds)

section

variable (Row : List (List Char) → Prop)

/-- The directives that pieces ask for. -/
inductive Reads : List (Nat × Section) → List (Nat × Directive) → Prop where
  | done : Reads [] []
  | directive {line : Nat} {s : Section} {d : Directive} {pieces : List (Nat × Section)}
      {ds : List (Nat × Directive)} (asks : Asks Row s (some d)) :
      Reads pieces ds → Reads ((line, s) :: pieces) ((line, d) :: ds)
  | nothing {line : Nat} {s : Section} {pieces : List (Nat × Section)}
      {ds : List (Nat × Directive)} (asks : Asks Row s none) :
      Reads pieces ds → Reads ((line, s) :: pieces) ds

/-- Pieces that make up a template: all can be read, and their directives are items that open no two
blocks of one name. -/
def Accepted (pieces : List (Nat × Section)) : Prop :=
  ∃ ds, Reads Row pieces ds ∧ Items ds ∧ (openedBlocks ds).Nodup

/-- Pieces with which a template can begin. -/
def Viable (pieces : List (Nat × Section)) : Prop :=
  ∃ more, Accepted Row (pieces ++ more)

/-- What is wrong with a section, by itself or behind the sections in front of it. -/
inductive Flaw : Section → Kind → Prop where
  | openBrace (column : Nat) : Flaw (.unclosed column) .unterminatedDirective
  | expression {s : List Char} (invalid : ∀ e, ¬ Expr.Valid s e) :
      Flaw (.output s) .malformedDirectiveSyntax
  | keyword {s arguments : List Char} {keyword : String} (words : Words s keyword.toList arguments)
      (unknown : keyword ∉ Directive.keywords) : Flaw (.action s) .unknownDirectiveKeyword
  | arguments {s arguments : List Char} {keyword : String}
      (words : Words s keyword.toList arguments) (known : keyword ∈ Directive.keywords)
      (invalid : ∀ d, ¬ Spelled Row s d) : Flaw (.action s) .malformedDirectiveSyntax
  | repeated {s : List Char} {name : String} (spelled : Spelled Row s (.openBlock name)) :
      Flaw (.action s) .duplicateBlock
  | misplaced {s : List Char} {d : Directive} (spelled : Spelled Row s d)
      (noBlock : ∀ name, d ≠ .openBlock name) : Flaw (.action s) .mismatchedBlockNesting

/-- The section that a `{` opens in front of a text. -/
inductive Opens : List Char → Section → Prop where
  | closed {contents rest : List Char} (closed : '}' ∉ contents) (inLine : '\n' ∉ contents) :
      Opens (contents ++ '}' :: rest) (.ofContents contents)
  | unclosed {after : List Char} (unclosed : '}' ∉ restOfLine after) (column : Nat) :
      Opens after (.unclosed column)

/-- The first section of a source text that cannot stand behind those in front of it, its line and
what is wrong with it. -/
def FirstFault (source : List Char) (line : Nat) (kind : Kind) : Prop :=
  ∃ before after pieces s, source = before ++ '{' :: after ∧ Pieces 1 before pieces ∧
    Opens after s ∧ line = 1 + before.count '\n' ∧
    Viable Row pieces ∧ ¬ Viable Row (pieces ++ [(line, s)]) ∧ Flaw Row s kind

/-- Every section of a source text can stand where it does, but a construct is left open, the
innermost of which begins on a line. -/
def LeftOpen (source : List Char) (line : Nat) : Prop :=
  (∃ pieces, Pieces 1 source pieces ∧ Viable Row pieces) ∧
    ∃ before contents rest directive pieces ds,
      source = before ++ '{' :: (contents ++ '}' :: rest) ∧ Outside before ∧
      '}' ∉ contents ∧ '\n' ∉ contents ∧ line = 1 + before.count '\n' ∧
      Asks Row (.ofContents contents) (some directive) ∧
      Pieces line rest pieces ∧ Reads Row pieces ds ∧ Unfinished directive ds

/-- What makes a source text a template: every `{` that opens a section is closed on its line, and
the pieces of the text are accepted. -/
def IsTemplate (source : List Char) : Prop :=
  (∀ before after, source = before ++ '{' :: after → Outside before → '}' ∈ restOfLine after) ∧
    ∃ pieces, Pieces 1 source pieces ∧ Accepted Row pieces

/-- What makes a source text no template: a first section that cannot stand where it does, or a
construct that is left open. -/
inductive Refusal (source : List Char) (line : Nat) : Kind → Prop where
  | fault {kind : Kind} : FirstFault Row source line kind → Refusal source line kind
  | leftOpen : LeftOpen Row source line → Refusal source line .mismatchedBlockNesting

end

/-! ## Rows of pieces -/

namespace Draft

variable {d e : Draft} {pieces front back : List (Nat × Section)}

theorem addSection_eq_ok_iff {line : Nat} {s : Section} :
    d.addSection line s = .ok e ↔
      Asks ClosedRow s none ∧ d = e ∨
        ∃ directive, Asks ClosedRow s (some directive) ∧ d.add line directive = .ok e := by
  simp only [← Directive.ofSection_eq_ok_iff, addSection]
  cases Directive.ofSection s with
  | error cause => simp
  | ok asked => cases asked <;> simp

theorem addAll_eq_ok_iff :
    d.addAll pieces = .ok e ↔ ∃ ds, Reads ClosedRow pieces ds ∧ Adds d ds e := by
  induction pieces generalizing d with
  | nil =>
      constructor
      · intro same
        obtain rfl := Except.ok.inj same
        exact ⟨[], .done, .done d⟩
      · rintro ⟨ds, reads, adds⟩
        cases reads
        cases adds
        rfl
  | cons piece pieces ih =>
      obtain ⟨line, s⟩ := piece
      rw [addAll]
      constructor
      · intro added
        split at added
        · rename_i middle first
          obtain ⟨ds, reads, adds⟩ := ih.1 added
          rcases addSection_eq_ok_iff.1 first with ⟨asks, rfl⟩ | ⟨directive, asks, first⟩
          · exact ⟨ds, .nothing asks reads, adds⟩
          · exact ⟨_, .directive asks reads, .next first adds⟩
        · cases added
      · rintro ⟨ds, reads, adds⟩
        cases reads with
        | directive asks reads =>
            cases adds with
            | next first adds =>
                rw [addSection_eq_ok_iff.2 (.inr ⟨_, asks, first⟩)]
                exact ih.2 ⟨_, reads, adds⟩
        | nothing asks reads =>
            rw [addSection_eq_ok_iff.2 (.inl ⟨asks, rfl⟩)]
            exact ih.2 ⟨_, reads, adds⟩

theorem addAll_append :
    d.addAll (front ++ back) = match d.addAll front with
      | .ok d => d.addAll back
      | .error error => .error error := by
  induction front generalizing d with
  | nil => rfl
  | cons piece front ih =>
      obtain ⟨line, s⟩ := piece
      rw [List.cons_append, addAll, addAll]
      cases d.addSection line s with
      | error cause => rfl
      | ok d => exact ih

/-- The first piece that is refused. -/
theorem exists_refused {line : Nat} {cause : CompileError.Cause}
    (refused : d.addAll pieces = .error (line, cause)) :
    ∃ front s back e, pieces = front ++ (line, s) :: back ∧ d.addAll front = .ok e ∧
      e.addSection line s = .error cause := by
  induction pieces generalizing d with
  | nil => cases refused
  | cons piece pieces ih =>
      obtain ⟨line', s⟩ := piece
      rw [addAll] at refused
      split at refused
      · rename_i middle first
        obtain ⟨front, s', back, e, rfl, added, refused⟩ := ih refused
        refine ⟨(line', s) :: front, s', back, e, rfl, ?_, refused⟩
        rw [addAll, first]
        exact added
      · rename_i cause' first
        obtain ⟨rfl, rfl⟩ := Prod.mk.inj (Except.error.inj refused)
        exact ⟨[], s, pieces, d, rfl, rfl, first⟩

end Draft

/-- What a draft has taken from the beginning. -/
theorem Draft.Adds.from_empty {d : Draft} {ds : List (Nat × Directive)}
    (adds : Adds Draft.empty ds d) :
    Within d.around ds ∧ (openedBlocks ds).Nodup := by
  have begins : Within Draft.empty.around [] := .outside .done
  refine ⟨adds.within begins, ?_⟩
  obtain ⟨names, distinct⟩ := adds.names List.nodup_nil
  rw [names] at distinct
  simpa [Draft.empty] using distinct

/-- Directives that leave no construct open are whole items with distinct names of blocks. -/
theorem Draft.Adds.items {d : Draft} {ds : List (Nat × Directive)} (adds : Adds Draft.empty ds d)
    (closed : d.around = []) : Items ds ∧ (openedBlocks ds).Nodup := by
  obtain ⟨within, distinct⟩ := adds.from_empty
  rw [closed] at within
  cases within with
  | outside items => exact ⟨items, distinct⟩

/-- Pieces are accepted if a draft takes them and they leave no construct open. -/
theorem accepted_iff {pieces : List (Nat × Section)} :
    Accepted ClosedRow pieces ↔ ∃ d, Draft.empty.addAll pieces = .ok d ∧ d.around = [] := by
  constructor
  · rintro ⟨ds, reads, items, distinct⟩
    obtain ⟨own, taken⟩ := items.taken distinct
    exact ⟨_, Draft.addAll_eq_ok_iff.2 ⟨ds, reads, taken Draft.empty nofun⟩, rfl⟩
  · rintro ⟨d, added, closed⟩
    obtain ⟨ds, reads, adds⟩ := Draft.addAll_eq_ok_iff.1 added
    obtain ⟨items, distinct⟩ := adds.items closed
    exact ⟨ds, reads, items, distinct⟩

theorem Reads.append {Row : List (List Char) → Prop} {front back : List (Nat × Section)}
    {ds more : List (Nat × Directive)} (reads : Reads Row front ds) (others : Reads Row back more) :
    Reads Row (front ++ back) (ds ++ more) := by
  induction reads with
  | done => exact others
  | directive asks _ ih => exact .directive asks ih
  | nothing asks _ ih => exact .nothing asks ih

theorem Reads.exists_asks {Row : List (List Char) → Prop} {pieces : List (Nat × Section)}
    {ds : List (Nat × Directive)} (reads : Reads Row pieces ds) :
    ∀ piece ∈ pieces, ∃ asked, Asks Row piece.2 asked := by
  induction reads with
  | done => exact nofun
  | directive asks _ ih | nothing asks _ ih => exact List.forall_mem_cons.2 ⟨⟨_, asks⟩, ih⟩

/-- The section that asks for the end of a construct. -/
theorem exists_closing (opening : Opening) : ∃ s, Asks ClosedRow s (some opening.closing) := by
  cases opening with
  | ifThen | ifElse => exact ⟨_, .action (.closeIf (.alone (by decide)))⟩
  | loop => exact ⟨_, .action (.closeFor (.alone (by decide)))⟩
  | block => exact ⟨_, .action (.closeBlock (.alone (by decide)))⟩

theorem exists_closings (around : List Enclosing) (line : Nat) :
    ∃ pieces, Reads ClosedRow pieces (around.map fun e => (line, e.opening.closing)) := by
  induction around with
  | nil => exact ⟨[], .done⟩
  | cons e around ih =>
      obtain ⟨s, asks⟩ := exists_closing e.opening
      obtain ⟨pieces, reads⟩ := ih
      exact ⟨(line, s) :: pieces, .directive asks reads⟩

theorem openedBlocks_closings (around : List Enclosing) (line : Nat) :
    openedBlocks (around.map fun e => (line, e.opening.closing)) = [] := by
  induction around with
  | nil => rfl
  | cons e around ih =>
      obtain ⟨opening, _, _⟩ := e
      cases opening <;> exact ih

/-- Pieces can be the beginning of a template if and only if a draft takes them. -/
theorem viable_iff {pieces : List (Nat × Section)} :
    Viable ClosedRow pieces ↔ ∃ d, Draft.empty.addAll pieces = .ok d := by
  constructor
  · rintro ⟨more, accepted⟩
    obtain ⟨d, added, -⟩ := accepted_iff.1 accepted
    rw [Draft.addAll_append] at added
    split at added
    · rename_i e first
      exact ⟨e, first⟩
    · cases added
  · rintro ⟨d, added⟩
    obtain ⟨ds, reads, adds⟩ := Draft.addAll_eq_ok_iff.1 added
    obtain ⟨within, distinct⟩ := adds.from_empty
    obtain ⟨closings, readsClosings⟩ := exists_closings d.around 0
    refine ⟨closings, _, reads.append readsClosings, within.completed 0, ?_⟩
    rwa [openedBlocks_append, openedBlocks_closings, List.append_nil]

/-! ## Refused sections -/

/-- Pieces in front of directives, the opening piece of one of them, and the pieces behind it. -/
theorem Reads.split {Row : List (List Char) → Prop} {pieces : List (Nat × Section)}
    {front back : List (Nat × Directive)} {line : Nat} {directive : Directive}
    (reads : Reads Row pieces (front ++ (line, directive) :: back)) :
    ∃ before s behind, pieces = before ++ (line, s) :: behind ∧ Reads Row before front ∧
      Asks Row s (some directive) ∧ Reads Row behind back := by
  generalize whole : front ++ (line, directive) :: back = ds at reads
  induction reads generalizing front with
  | done => simp at whole
  | @directive line' s d pieces ds asks reads ih =>
      cases front with
      | nil =>
          obtain ⟨same, rfl⟩ := List.cons.inj whole
          obtain ⟨rfl, rfl⟩ := Prod.mk.inj same
          exact ⟨[], s, pieces, rfl, .done, asks, reads⟩
      | cons first front =>
          obtain ⟨rfl, others⟩ := List.cons.inj whole
          obtain ⟨before, s', behind, rfl, reads, asks', reads'⟩ := ih others
          exact ⟨_ :: before, s', behind, rfl, .directive asks reads, asks', reads'⟩
  | nothing asks _ ih =>
      obtain ⟨before, s', behind, rfl, reads, asks', reads'⟩ := ih whole
      exact ⟨_ :: before, s', behind, rfl, .nothing asks reads, asks', reads'⟩

namespace Draft

open CompileError

variable {d : Draft} {line : Nat} {cause : Cause}

theorem kind_of_close {construct : Construct} (refused : d.close line construct = .error cause) :
    cause.kind = .mismatchedBlockNesting := by
  rw [close] at refused
  split at refused
  · rw [← Except.error.inj refused]
    rfl
  · simp only at refused
    split at refused
    · cases refused
    · rw [← Except.error.inj refused]
      rfl

theorem kind_of_orElse (refused : d.orElse line = .error cause) :
    cause.kind = .mismatchedBlockNesting := by
  rw [orElse] at refused
  split at refused
  · rw [← Except.error.inj refused]
    rfl
  · split at refused
    · cases refused
    all_goals
      rw [← Except.error.inj refused]
      rfl

theorem kind_of_closeBlock {label : String} (refused : d.closeBlock line label = .error cause) :
    cause.kind = .mismatchedBlockNesting := by
  rw [closeBlock] at refused
  split at refused
  · split at refused
    · exact kind_of_close refused
    · rw [← Except.error.inj refused]
      rfl
  · exact kind_of_close refused

/-- A directive is refused where it does not fit the open constructs, unless it repeats a name. -/
theorem kind_of_add {directive : Directive} (refused : d.add line directive = .error cause) :
    (∃ name, directive = .openBlock name) ∧ cause.kind = .duplicateBlock ∨
      (∀ name, directive ≠ .openBlock name) ∧ (∀ s, directive ≠ .text s) ∧
        cause.kind = .mismatchedBlockNesting := by
  cases directive with
  | text | output | call | openIf | openFor => cases refused
  | openBlock name =>
      rw [add] at refused
      split at refused
      · rw [← Except.error.inj refused]
        exact .inl ⟨⟨name, rfl⟩, rfl⟩
      · cases refused
  | orElse => exact .inr ⟨by simp, by simp, kind_of_orElse refused⟩
  | closeIf | closeFor => exact .inr ⟨by simp, by simp, kind_of_close refused⟩
  | closeBlock label => exact .inr ⟨by simp, by simp, kind_of_closeBlock refused⟩

end Draft

theorem flaw_of_ofSection {s : Section} {cause : CompileError.Cause}
    (refused : Directive.ofSection s = .error cause) : Flaw ClosedRow s cause.kind := by
  have invalid : ∀ asked, ¬ Asks ClosedRow s asked := by
    intro asked asks
    rw [Directive.ofSection_eq_ok_iff.2 asks] at refused
    cases refused
  cases s with
  | text | comment | brace | nothing => cases refused
  | unclosed column =>
      rw [← Except.error.inj refused]
      exact .openBrace column
  | output s =>
      have kind : cause.kind = .malformedDirectiveSyntax := by
        refine Directive.refuses_readExpr s cause ?_
        rw [Directive.ofSection] at refused
        cases read : Directive.readExpr s with
        | ok e => rw [read] at refused; cases refused
        | error cause' => rw [read] at refused; rw [← Except.error.inj refused]
      rw [kind]
      exact .expression fun e valid => invalid _ (.output valid)
  | action s =>
      obtain ⟨keyword, arguments, words⟩ := Directive.exists_keyword s
      have unread : Directive.readAction s = .error cause := by
        rw [Directive.ofSection] at refused
        cases read : Directive.readAction s with
        | ok d => rw [read] at refused; cases refused
        | error cause' => rw [read] at refused; rw [← Except.error.inj refused]
      rw [Directive.kind_of_readAction words unread]
      split
      · rename_i known
        exact .arguments words known fun d spelled => invalid _ (.action spelled)
      · rename_i unknown
        exact .keyword words unknown

/-- A section is refused for a fault of its own, or for its place; text never is. -/
theorem flaw_of_refused {d : Draft} {line : Nat} {s : Section} {cause : CompileError.Cause}
    (refused : d.addSection line s = .error cause) : Flaw ClosedRow s cause.kind := by
  rw [Draft.addSection] at refused
  split at refused
  · rename_i directive read
    have asks := Directive.ofSection_eq_ok_iff.1 read
    rcases Draft.kind_of_add refused with ⟨⟨name, rfl⟩, kind⟩ | ⟨noBlock, noText, kind⟩
    · rw [kind]
      cases asks with
      | action spelled => exact .repeated spelled
    · rw [kind]
      cases asks with
      | text s | brace c => exact absurd rfl (noText _)
      | output valid => cases refused
      | action spelled => exact .misplaced spelled noBlock
  · cases refused
  · rename_i cause' read
    rw [← Except.error.inj refused]
    exact flaw_of_ofSection read

/-! ## Source texts -/

variable {source before after : List Char} {pieces front back : List (Nat × Section)}

/-- Where a text consists of pieces, every `{` that opens a section is closed on its line. -/
theorem Pieces.closed {line : Nat} (whole : Pieces line (before ++ '{' :: after) pieces)
    (outside : Pieces line before front) : '}' ∈ restOfLine after := by
  by_contra unclosed
  obtain ⟨column, more, found⟩ := outside.sections_open unclosed
  rw [whole.sections_eq] at found
  have mem : (line + before.count '\n', Section.unclosed column) ∈ pieces := by
    rw [found]
    exact List.mem_append_right _ List.mem_cons_self
  exact (whole.sound _ mem).2 column rfl

/-- A piece with a flaw is a section in braces. -/
theorem FirstFault.of_piece {Row : List (List Char) → Prop} {line : Nat} {s : Section} {kind : Kind}
    (whole : Pieces 1 source (front ++ (line, s) :: back)) (viable : Viable Row front)
    (fault : ¬ Viable Row (front ++ [(line, s)])) (flaw : Flaw Row s kind) (behind : List Char) :
    FirstFault Row (source ++ behind) line kind := by
  obtain ⟨before, rest, rfl, outside, pieces⟩ := whole.split
  cases pieces with
  | run => cases flaw
  | lineEnd => cases flaw
  | @braces _ contents rest _ closed inLine _ =>
      have shape : before ++ '{' :: (contents ++ '}' :: rest) ++ behind =
          before ++ '{' :: (contents ++ '}' :: (rest ++ behind)) := by simp
      rw [shape]
      exact ⟨before, _, front, _, rfl, outside, .closed closed inLine, rfl, viable, fault, flaw⟩

/-- Where a draft refuses a piece is the first fault, whatever stands behind the pieces. -/
theorem FirstFault.of_refused {line : Nat} {cause : CompileError.Cause}
    (whole : Pieces 1 source pieces) (refused : Draft.empty.addAll pieces = .error (line, cause))
    (behind : List Char) : FirstFault ClosedRow (source ++ behind) line cause.kind := by
  obtain ⟨front, s, back, d, rfl, taken, refused⟩ := Draft.exists_refused refused
  refine .of_piece whole (viable_iff.2 ⟨d, taken⟩) ?_ (flaw_of_refused refused) behind
  rw [viable_iff, Draft.addAll_append, taken]
  simp only [Draft.addAll, refused]
  rintro ⟨_, same⟩
  cases same

/-- A `{` that its line does not close is the first fault, if there is none in front of it. -/
theorem FirstFault.of_open (column : Nat) (outside : Pieces 1 before pieces)
    (viable : Viable ClosedRow pieces) (unclosed : '}' ∉ restOfLine after) :
    FirstFault ClosedRow (before ++ '{' :: after) (1 + before.count '\n')
      .unterminatedDirective := by
  refine ⟨before, after, pieces, _, rfl, outside, .unclosed unclosed column, rfl, viable, ?_,
    .openBrace column⟩
  obtain ⟨d, taken⟩ := viable_iff.1 viable
  rw [viable_iff, Draft.addAll_append, taken]
  nofun

/-- A construct left open was opened by a section in braces. -/
theorem LeftOpen.of_draft {d : Draft} {e : Enclosing} {around : List Enclosing}
    (whole : Pieces 1 source pieces) (taken : Draft.empty.addAll pieces = .ok d)
    (open_ : d.around = e :: around) : LeftOpen ClosedRow source e.line := by
  refine ⟨⟨pieces, whole, viable_iff.2 ⟨d, taken⟩⟩, ?_⟩
  obtain ⟨ds, reads, adds⟩ := Draft.addAll_eq_ok_iff.1 taken
  have within := adds.from_empty.1
  rw [open_] at within
  obtain ⟨_, directive, inside, rfl, unfinished⟩ := within.innermost
  obtain ⟨opening, line, nodes⟩ := e
  obtain ⟨front, s, back, rfl, -, asks, readsInside⟩ := reads.split
  obtain ⟨before, rest, rfl, outside, pieces⟩ := whole.split
  cases pieces with
  | run | lineEnd =>
      cases asks
      cases unfinished
  | braces closed inLine behind =>
      exact ⟨before, _, _, directive, back, inside, rfl, ⟨_, outside⟩, closed, inLine, rfl, asks,
        behind, readsInside, unfinished⟩

/-- A source text has a tree if it is a template; otherwise the first error says why not. -/
theorem nodes_or_refusal (source : List Char) :
    (∃ nodes, Node.ofSource source = .ok nodes) ∧ IsTemplate ClosedRow source ∨
      ∃ line cause, Node.ofSource source = .error (line, cause) ∧ ¬ IsTemplate ClosedRow source ∧
        Refusal ClosedRow source line cause.kind := by
  rcases pieces_or_open 1 source with ⟨pieces, whole⟩ |
    ⟨before, after, pieces, rfl, outside, unclosed⟩
  · have closed : ∀ before after, source = before ++ '{' :: after → Outside before →
        '}' ∈ restOfLine after := by
      rintro before after rfl ⟨front, outside⟩
      exact whole.closed outside
    have isTemplate : IsTemplate ClosedRow source ↔
        ∃ d, Draft.empty.addAll pieces = .ok d ∧ d.around = [] := by
      rw [← accepted_iff]
      constructor
      · rintro ⟨-, pieces', whole', accepted⟩
        rwa [← whole.sections_eq, whole'.sections_eq]
      · exact fun accepted => ⟨closed, pieces, whole, accepted⟩
    rw [isTemplate, Node.ofSource, Section.ofSource, whole.sections_eq]
    cases taken : Draft.empty.addAll pieces with
    | error error =>
        obtain ⟨line, cause⟩ := error
        have fault := FirstFault.of_refused whole taken []
        rw [List.append_nil] at fault
        refine .inr ⟨line, cause, rfl, ?_, .fault fault⟩
        rintro ⟨_, same, -⟩
        cases same
    | ok d =>
        obtain ⟨body, around, names⟩ := d
        cases around with
        | nil => exact .inl ⟨⟨_, rfl⟩, _, rfl, rfl⟩
        | cons e around =>
            refine .inr ⟨e.line, _, rfl, ?_, .leftOpen (.of_draft whole taken rfl)⟩
            rintro ⟨d, same, closed⟩
            obtain rfl := Except.ok.inj same
            cases closed
  · right
    obtain ⟨column, more, found⟩ := outside.sections_open unclosed
    have noTemplate : ¬ IsTemplate ClosedRow (before ++ '{' :: after) := by
      rintro ⟨closed, -⟩
      exact unclosed (closed before after rfl ⟨pieces, outside⟩)
    rw [Node.ofSource, Section.ofSource, found, Draft.addAll_append]
    cases taken : Draft.empty.addAll pieces with
    | error error =>
        obtain ⟨line, cause⟩ := error
        exact ⟨line, cause, rfl, noTemplate, .fault (.of_refused outside taken _)⟩
    | ok d =>
        have fault := FirstFault.of_open column outside (viable_iff.2 ⟨d, taken⟩) unclosed
        exact ⟨_, .unclosedBrace column, rfl, noTemplate, .fault fault⟩

/-- The tree of a source text is what a draft has made of its pieces. -/
theorem exists_draft {nodes : List Node} (tree : Node.ofSource source = .ok nodes) :
    ∃ pieces d, Pieces 1 source pieces ∧ Draft.empty.addAll pieces = .ok d ∧ d.around = [] ∧
      nodes = d.body.reverse := by
  rcases nodes_or_refusal source with ⟨-, -, pieces, whole, -⟩ | ⟨_, _, refused, -⟩
  · rw [Node.ofSource, Section.ofSource, whole.sections_eq] at tree
    cases taken : Draft.empty.addAll pieces with
    | error error =>
        rw [taken] at tree
        cases tree
    | ok d =>
        obtain ⟨body, around, names⟩ := d
        rw [taken] at tree
        cases around with
        | nil => exact ⟨pieces, _, whole, taken, rfl, (Except.ok.inj tree).symm⟩
        | cons e around => cases tree
  · cases refused.symm.trans tree

end BraceTemplate
