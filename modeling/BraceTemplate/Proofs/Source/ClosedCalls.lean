/-
# BraceTemplate.Proofs.Source.ClosedCalls — which texts of the grammar are read

The grammar of directives lets a call have any expressions as its arguments. A key may open a
bracket outside its quotes, and the division at commas counts it, so such an argument is read in
front of no comma. `ClosedCalls` says that no call in a source text has one there.

* `isTemplate_iff`: what is read are the templates of the grammar with closed calls;
* `Refusal.any`: where all calls are closed, a text is refused for the reasons of the grammar;
* `compile_exact`: a source text compiles if and only if it is a template of the grammar all of
  whose calls are closed, and which error it has otherwise.
-/
import Mathlib
import BraceTemplate.Proofs.Expr.Outline
import BraceTemplate.Proofs.Source.Acceptance

namespace BraceTemplate

set_option autoImplicit false

open Text
open CompileError (Kind)
open Draft (Adds)

/-- Whatever the grammar derives of a section is read. -/
def CallClosed (s : Section) : Prop :=
  ∀ asked, Asks AnyRow s asked → Asks ClosedRow s asked

/-- No call in a source text leaves a bracket open in front of a comma. -/
def ClosedCalls (source : List Char) : Prop :=
  ∀ before contents rest, source = before ++ '{' :: (contents ++ '}' :: rest) → Outside before →
    '}' ∉ contents → '\n' ∉ contents → CallClosed (.ofContents contents)

/-! ## Directives -/

/-- The grammars of directives differ in the rows of their calls only. -/
theorem Spelled.imp {Row Row' : List (List Char) → Prop} {action : List Char} {d : Directive}
    (spelled : Spelled Row action d)
    (rows : ∀ callee row values, Words action "call".toList (callee ++ row.flatMap (',' :: ·)) →
      isName (trim callee) = true → List.Forall₂ (IsArgument Expr.Valid) row values → Row row →
      Row' row) : Spelled Row' action d := by
  cases spelled with
  | openIf words valid => exact .openIf words valid
  | orElse words => exact .orElse words
  | closeIf words => exact .closeIf words
  | openFor words parts name valid => exact .openFor words parts name valid
  | closeFor words => exact .closeFor words
  | openBlock words valid => exact .openBlock words valid
  | closeBlock words => exact .closeBlock words
  | call words name valid distinct allowed =>
      exact .call words name valid distinct (rows _ _ _ words name valid allowed)

/-- Sections ask for the same where their actions spell the same. -/
theorem Asks.imp {Row Row' : List (List Char) → Prop} {s : Section} {asked : Option Directive}
    (asks : Asks Row s asked)
    (actions : ∀ action d, s = .action action → Spelled Row action d → Spelled Row' action d) :
    Asks Row' s asked := by
  cases asks with
  | text s => exact .text s
  | brace c => exact .brace c
  | comment => exact .comment
  | nothing => exact .nothing
  | output valid => exact .output valid
  | action spelled => exact .action (actions _ _ rfl spelled)

theorem Asks.mono {Row Row' : List (List Char) → Prop} (weaker : ∀ row, Row row → Row' row)
    {s : Section} {asked : Option Directive} (asks : Asks Row s asked) : Asks Row' s asked :=
  asks.imp fun _ _ _ spelled => spelled.imp fun _ row _ _ _ _ => weaker row

theorem clear_trim {s : List Char} (name : isName (trim s) = true) : Expr.Clear ',' s :=
  Expr.Divides.comma.clear_padded (.of_trim s) (Expr.Divides.comma.clear_name name)

theorem IsArgument.clear {part : List Char} {argument : String × Expr}
    (isArgument : IsArgument Expr.Valid part argument) : Expr.Clear ',' part := by
  obtain ⟨key, value, rfl, -, name, -, valid⟩ := isArgument
  have equals : Expr.Clear ',' ['='] := .of_not_mem (by decide) (by decide)
  exact (clear_trim name).append (equals.append (valid.clear Expr.Divides.comma (by decide)))

/-- The row of a call can be told from its text. -/
theorem row_unique {callee callee' : List Char} {row row' : List (List Char)}
    {values values' : List (String × Expr)}
    (name : isName (trim callee) = true) (name' : isName (trim callee') = true)
    (valid : List.Forall₂ (IsArgument Expr.Valid) row values)
    (valid' : List.Forall₂ (IsArgument Expr.Valid) row' values')
    (same : callee ++ row.flatMap (',' :: ·) = callee' ++ row'.flatMap (',' :: ·)) :
    row = row' := by
  have clear : ∀ {callee row values}, isName (trim callee) = true →
      List.Forall₂ (IsArgument Expr.Valid) row values →
        ∀ part ∈ callee :: row, Expr.Clear ',' part := by
    intro callee row values name valid
    exact List.forall_mem_cons.2
      ⟨clear_trim name, Expr.forall_of_forall₂ valid fun _ _ => IsArgument.clear⟩
  exact (Expr.joined_inj (by decide) (clear name valid) (clear name' valid') same).2

/-- An action that is read at all is read as the directive that it spells. -/
theorem Spelled.closed {action : List Char} {d d' : Directive} (spelled : Spelled AnyRow action d)
    (closed : Spelled ClosedRow action d') : Spelled ClosedRow action d := by
  refine spelled.imp fun callee row values words name valid _ => ?_
  cases closed with
  | call words' name' valid' _ closed =>
      rwa [row_unique name name' valid valid' (words.unique words').2]
  | openIf words' | orElse words' | closeIf words' | openFor words' | closeFor words'
  | openBlock words' | closeBlock words' => exact absurd (words.unique words').1 (by decide)

theorem Asks.closed {s : Section} {asked asked' : Option Directive} (asks : Asks AnyRow s asked)
    (closed : Asks ClosedRow s asked') : Asks ClosedRow s asked := by
  refine asks.imp ?_
  rintro action d rfl spelled
  cases closed with
  | action closed => exact spelled.closed closed

/-! ## Source texts -/

variable {source before : List Char} {pieces front back : List (Nat × Section)}

theorem any_of_closed (row : List (List Char)) (_ : ClosedRow row) : AnyRow row :=
  trivial

section

variable {ds : List (Nat × Directive)}

theorem Reads.mono {Row Row' : List (List Char) → Prop} (weaker : ∀ row, Row row → Row' row)
    (reads : Reads Row pieces ds) : Reads Row' pieces ds := by
  induction reads with
  | done => exact .done
  | directive asks _ ih => exact .directive (asks.mono weaker) ih
  | nothing asks _ ih => exact .nothing (asks.mono weaker) ih

theorem Viable.mono {Row Row' : List (List Char) → Prop} (weaker : ∀ row, Row row → Row' row)
    (viable : Viable Row pieces) : Viable Row' pieces := by
  obtain ⟨more, ds, reads, items, distinct⟩ := viable
  exact ⟨more, ds, reads.mono weaker, items, distinct⟩

theorem Reads.closed (reads : Reads AnyRow pieces ds)
    (closed : ∀ piece ∈ pieces, CallClosed piece.2) : Reads ClosedRow pieces ds := by
  induction reads with
  | done => exact .done
  | directive asks _ ih =>
      rw [List.forall_mem_cons] at closed
      exact .directive (closed.1 _ asks) (ih closed.2)
  | nothing asks _ ih =>
      rw [List.forall_mem_cons] at closed
      exact .nothing (closed.1 _ asks) (ih closed.2)

/-- The directives of the first pieces come first. -/
theorem Reads.append_inv {Row : List (List Char) → Prop} (reads : Reads Row (front ++ back) ds) :
    ∃ first second, ds = first ++ second ∧ Reads Row front first ∧ Reads Row back second := by
  induction front generalizing ds with
  | nil => exact ⟨[], ds, rfl, .done, reads⟩
  | cons piece front ih =>
      cases reads with
      | directive asks reads =>
          obtain ⟨first, second, rfl, reads, others⟩ := ih reads
          exact ⟨_ :: first, second, rfl, .directive asks reads, others⟩
      | nothing asks reads =>
          obtain ⟨first, second, rfl, reads, others⟩ := ih reads
          exact ⟨first, second, rfl, .nothing asks reads, others⟩

/-- Pieces that the grammar can go on from are taken by a draft if all their calls are closed. -/
theorem Viable.closed (viable : Viable AnyRow pieces)
    (closed : ∀ piece ∈ pieces, CallClosed piece.2) : Viable ClosedRow pieces := by
  obtain ⟨more, ds, reads, items, distinct⟩ := viable
  obtain ⟨first, second, rfl, reads, -⟩ := reads.append_inv
  obtain ⟨own, taken⟩ := items.taken distinct
  obtain ⟨d, adds, -⟩ := (taken Draft.empty nofun).split
  exact viable_iff.2 ⟨d, Draft.addAll_eq_ok_iff.2 ⟨first, reads.closed closed, adds⟩⟩

end

/-- A section in braces is a piece of its text. -/
theorem Pieces.mem_of_braces {line : Nat} {contents rest : List Char}
    (whole : Pieces line (before ++ '{' :: (contents ++ '}' :: rest)) pieces)
    (outside : Pieces line before front) (closed : '}' ∉ contents) (inLine : '\n' ∉ contents) :
    (line + before.count '\n', Section.ofContents contents) ∈ pieces := by
  obtain ⟨column, found⟩ := outside.resume_append (.inr ⟨_, rfl⟩) 0
  rw [← Section.ofLines_eq_resume, whole.sections_eq, Section.resume_braces closed inLine] at found
  rw [found]
  exact List.mem_append_right _ List.mem_cons_self

/-- All calls in a beginning of a text are closed if those in the text are. -/
theorem ClosedCalls.of_pieces {behind : List Char} (calls : ClosedCalls (before ++ behind))
    (outside : Pieces 1 before pieces) : ∀ piece ∈ pieces, CallClosed piece.2 := by
  intro piece mem asked asks
  obtain ⟨front, back, rfl⟩ := List.append_of_mem mem
  obtain ⟨start, rest, rfl, first, others⟩ := outside.split
  cases others with
  | run | lineEnd =>
      cases asks
      exact .text _
  | @braces _ contents rest _ closed inLine _ =>
      refine calls start contents (rest ++ behind) ?_ ⟨_, first⟩ closed inLine asked asks
      rw [List.append_assoc, List.cons_append, List.append_assoc, List.cons_append]

/-- What is read is a template of the grammar with closed calls. -/
theorem isTemplate_iff :
    IsTemplate ClosedRow source ↔ IsTemplate AnyRow source ∧ ClosedCalls source := by
  constructor
  · rintro ⟨closes, pieces, whole, ds, reads, items, distinct⟩
    refine ⟨⟨closes, pieces, whole, ds, reads.mono any_of_closed, items, distinct⟩, ?_⟩
    rintro before contents rest rfl ⟨front, outside⟩ closed inLine asked asks
    obtain ⟨asked', read⟩ :=
      reads.exists_asks _ (whole.mem_of_braces outside closed inLine)
    exact asks.closed read
  · rintro ⟨⟨closes, pieces, whole, ds, reads, items, distinct⟩, calls⟩
    rw [← List.append_nil source] at calls
    exact ⟨closes, pieces, whole, ds, reads.closed (calls.of_pieces whole), items, distinct⟩

theorem Flaw.any {s : Section} {kind : Kind} (flaw : Flaw ClosedRow s kind)
    (closed : CallClosed s) : Flaw AnyRow s kind := by
  cases flaw with
  | openBrace column => exact .openBrace column
  | expression invalid => exact .expression invalid
  | keyword words unknown => exact .keyword words unknown
  | arguments words known invalid =>
      refine .arguments words known fun d spelled => ?_
      cases closed _ (.action spelled) with
      | action read => exact invalid d read
  | repeated spelled => exact .repeated (spelled.imp fun _ _ _ _ _ _ _ => trivial)
  | misplaced spelled noBlock => exact .misplaced (spelled.imp fun _ _ _ _ _ _ _ => trivial) noBlock

/-- Where all calls are closed, what is read is refused for the reasons of the grammar. -/
theorem Refusal.any {line : Nat} {kind : Kind} (refusal : Refusal ClosedRow source line kind)
    (calls : ClosedCalls source) : Refusal AnyRow source line kind := by
  cases refusal with
  | fault fault =>
      obtain ⟨before, after, pieces, s, rfl, outside, opens, rfl, viable, fault, flaw⟩ := fault
      have closed : ∀ piece ∈ pieces, CallClosed piece.2 := calls.of_pieces outside
      have closed' : CallClosed s := by
        cases opens with
        | closed closed inLine => exact calls _ _ _ rfl ⟨_, outside⟩ closed inLine
        | unclosed => exact nofun
      refine .fault ⟨before, after, pieces, s, rfl, outside, opens, rfl,
        viable.mono any_of_closed, fun viable => fault (viable.closed ?_), flaw.any closed'⟩
      intro piece mem
      rcases List.mem_append.1 mem with mem | mem
      · exact closed piece mem
      · rw [List.mem_singleton.1 mem]
        exact closed'
  | leftOpen leftOpen =>
      obtain ⟨⟨pieces, whole, viable⟩, before, contents, rest, directive, pieces', ds, same,
        outside, closed, inLine, line, asks, behind, reads, unfinished⟩ := leftOpen
      exact .leftOpen ⟨⟨pieces, whole, viable.mono any_of_closed⟩, before, contents, rest,
        directive, pieces', ds, same, outside, closed, inLine, line, asks.mono any_of_closed,
        behind, reads.mono any_of_closed, unfinished⟩

/-! ## Texts without brackets -/

theorem trim_subset (s : List Char) : trim s ⊆ s := by
  obtain ⟨before, after, whole, -, -⟩ := Padded.of_trim s
  intro c mem
  rw [whole]
  exact List.mem_append_left _ (List.mem_append_right _ mem)

theorem Section.subset_of_action {contents s : List Char}
    (same : Section.ofContents contents = .action s) : s ⊆ contents := by
  unfold Section.ofContents at same
  split at same
  case h_3 rest shape =>
      obtain rfl := Section.action.inj same
      have inner : Section.dropPercent rest ⊆ rest := by
        rw [Section.dropPercent]
        split
        · exact List.dropLast_subset rest
        · exact fun _ mem => mem
      have behind : rest ⊆ trim contents := by
        rw [shape]
        exact List.subset_cons_self _ _
      exact fun c mem => trim_subset _ (behind (inner (trim_subset _ mem)))
  all_goals cases same

theorem Words.subset {s first rest : List Char} (words : Words s first rest) : rest ⊆ s := by
  obtain ⟨-, ⟨-, rfl⟩ | ⟨blank, tail, -, rfl, rfl⟩⟩ := words
  · exact List.nil_subset s
  · exact fun c mem => List.mem_append_right _ (List.mem_cons_of_mem _ (trim_subset tail mem))

/-- An expression without a bracket leaves none open. -/
theorem Expr.Valid.closed_of_not_mem {s : List Char} {e : Expr} (valid : Expr.Valid s e)
    (absent : '[' ∉ s) : Expr.Composed (Step.Admitted 0) s e := by
  obtain ⟨path, texts, parts, rfl, padded, name, permitted, modifiers⟩ := valid
  have inPath : ∀ w ∈ texts, '[' ∉ w := by
    obtain ⟨before, after, rfl, -, -⟩ := padded
    intro w mem inside
    apply absent
    simp only [List.mem_append, List.mem_flatten]
    exact .inl (.inl (.inr (.inr ⟨w, mem, inside⟩)))
  refine ⟨path, texts, parts, rfl, padded, name, ?_, modifiers⟩
  refine ((List.forall₂_and_left _ _).2 ⟨inPath, permitted⟩).imp ?_
  rintro w step ⟨noBracket, n, admitted, -⟩
  rcases admitted.shape with ⟨word, rfl, rfl, -⟩ | ⟨inner, rfl, -⟩
  · exact admitted
  · exact absurd List.mem_cons_self noBracket

theorem closedRow_of_not_mem {row : List (List Char)} {values : List (String × Expr)}
    (valid : List.Forall₂ (IsArgument Expr.Valid) row values) (absent : ∀ part ∈ row, '[' ∉ part) :
    ClosedRow row := by
  intro part mem
  have inRow : part ∈ row := List.dropLast_subset _ mem
  have some : ∀ part ∈ row, ∃ argument, IsArgument Expr.Valid part argument :=
    Expr.forall_of_forall₂ valid fun _ argument isArgument => ⟨argument, isArgument⟩
  obtain ⟨argument, key, value, whole, first, name, same, valid⟩ := some part inRow
  refine ⟨argument, key, value, whole, first, name, same, valid.closed_of_not_mem ?_⟩
  intro inValue
  apply absent part inRow
  rw [whole]
  exact List.mem_append_right _ (List.mem_cons_of_mem _ inValue)

/-- In a text without `[` all calls are closed. -/
theorem closedCalls_of_not_mem (absent : '[' ∉ source) : ClosedCalls source := by
  rintro before contents rest rfl - - - asked asks
  refine asks.imp fun action d same spelled => ?_
  refine spelled.imp fun callee row values words _ valid _ => ?_
  refine closedRow_of_not_mem valid fun part mem inPart => absent ?_
  have inRow : '[' ∈ callee ++ row.flatMap (',' :: ·) :=
    List.mem_append_right _ (List.mem_flatMap.2 ⟨part, mem, List.mem_cons_of_mem _ inPart⟩)
  have inContents := Section.subset_of_action same (words.subset inRow)
  exact List.mem_append_right _ (List.mem_cons_of_mem _ (List.mem_append_left _ inContents))

/-! ## Compilation -/

/-- **Which source texts compile.** A source text compiles if and only if it is a template of the
grammar and no call in it leaves a bracket open in front of a comma. An error names the first
section that cannot stand where it does by what is read of the grammar or, if there is none, the
innermost construct left open; where all calls are closed, it is the one that the grammar
demands. -/
theorem compile_exact (name source : String) :
    ((∃ t, Template.compile name source = .ok t) ↔
      IsTemplate AnyRow source.toList ∧ ClosedCalls source.toList) ∧
      ∀ e, Template.compile name source = .error e →
        e.template = name ∧ Refusal ClosedRow source.toList e.line e.cause.kind ∧
          (ClosedCalls source.toList → Refusal AnyRow source.toList e.line e.cause.kind) := by
  rw [Template.compile_eq, ← isTemplate_iff]
  rcases nodes_or_refusal source.toList with ⟨⟨nodes, tree⟩, isTemplate⟩ |
    ⟨line, cause, refused, noTemplate, refusal⟩
  · rw [tree]
    refine ⟨⟨fun _ => isTemplate, fun _ => ⟨_, rfl⟩⟩, ?_⟩
    rintro e ⟨⟩
  · rw [refused]
    refine ⟨⟨?_, fun isTemplate => absurd isTemplate noTemplate⟩, ?_⟩
    · rintro ⟨t, ⟨⟩⟩
    · intro e same
      obtain rfl := Except.error.inj same
      exact ⟨rfl, refusal, refusal.any⟩

/-- Of three faults the first in the source is reported. -/
theorem compile_exact_first_fault :
    let source := "\x7b%if a%\x7d\n\x7b%block b%\x7d\n\x7b%endif%\x7d\x7b%nope%\x7d\x7b"
    let e : CompileError := ⟨"page", 3, .closesOther .conditional .block 2⟩
    Template.compile "page" source = .error e ∧ ClosedCalls source.toList ∧
      ¬ IsTemplate AnyRow source.toList ∧
      Refusal AnyRow source.toList 3 .mismatchedBlockNesting := by
  intro source e
  have refused : Template.compile "page" source = .error e :=
    Template.compile_eq_error_iff.2 ⟨rfl, by cbv⟩
  have closed : ClosedCalls source.toList := closedCalls_of_not_mem (by decide)
  obtain ⟨accepts, refuses⟩ := compile_exact "page" source
  refine ⟨refused, closed, fun isTemplate => ?_, (refuses e refused).2.2 closed⟩
  obtain ⟨t, compiled⟩ := accepts.2 ⟨isTemplate, closed⟩
  cases refused.symm.trans compiled

/-- Of two arguments the first has a key that opens a bracket outside its quotes. The grammar
derives the call, and the text is refused. -/
theorem compile_refuses_open_row :
    let source := "\x7b%call f, a=m['x'['y'], b=z%\x7d"
    let e : CompileError := ⟨"t", 1, .badExpression ⟨"m['x'['y'], b=z", .unexpectedText ", b=z"⟩⟩
    IsTemplate AnyRow source.toList ∧ Template.compile "t" source = .error e ∧
      ¬ ((∃ t, Template.compile "t" source = .ok t) ↔ IsTemplate AnyRow source.toList) := by
  intro source e
  let contents := "%call f, a=m['x'['y'], b=z%".toList
  have shape : source.toList = '{' :: (contents ++ ['}']) := by decide
  have whole : Pieces 1 source.toList [(1, .ofContents contents)] := by
    rw [shape]
    exact .braces (by decide) (by decide) (.done 1)
  have first : IsArgument Expr.Valid " a=m['x'['y']".toList ("a", ⟨"m", [.key "x'['y"], []⟩) :=
    ⟨" a".toList, "m['x'['y']".toList, by decide, by decide, by decide, by decide,
      Expr.ofChars_eq_ok_iff.1 (by cbv)⟩
  have second : IsArgument Expr.Valid " b=z".toList ("b", ⟨"z", [], []⟩) :=
    ⟨" b".toList, "z".toList, by decide, by decide, by decide, by decide,
      Expr.ofChars_eq_ok_iff.1 (by cbv)⟩
  have words : Words "call f, a=m['x'['y'], b=z".toList "call".toList
      ("f".toList ++ [" a=m['x'['y']".toList, " b=z".toList].flatMap (',' :: ·)) :=
    words_iff.2 (by decide)
  have spelled : Spelled AnyRow "call f, a=m['x'['y'], b=z".toList
      (.call "f" [("a", ⟨"m", [.key "x'['y"], []⟩), ("b", ⟨"z", [], []⟩)]) :=
    .call words (by decide) (.cons first (.cons second .nil)) (by decide) trivial
  have isTemplate : IsTemplate AnyRow source.toList := by
    refine ⟨?_, _, whole, _, .directive (.action spelled) .done, .call .done, List.nodup_nil⟩
    intro before after same outside
    obtain ⟨pieces, outside⟩ := outside
    exact Pieces.closed (same ▸ whole) outside
  have refused : Template.compile "t" source = .error e :=
    Template.compile_eq_error_iff.2 ⟨rfl, by cbv⟩
  refine ⟨isTemplate, refused, fun exact_ => ?_⟩
  obtain ⟨t, compiled⟩ := exact_.2 isTemplate
  cases refused.symm.trans compiled

end BraceTemplate
