/-
# BraceTemplate.Proofs.Source.Idle — sections that ask for nothing

A comment and an empty section can be put into a source text wherever a section can begin, also in
the middle of a text, which they divide into two that become one again. Nothing moves to another
line, so the text compiles to the same template, or is refused for the same kind of error on the
same line; only the column of a `{` behind the section is another one.

Whether a section can begin is a matter of the last line in front of it: a `{` that an earlier line
does not close is refused with the section and without it.

* `Idle.asks_none`: what is written as an idle section asks for nothing;
* `Idle.exists_pieces`: between two texts it makes no difference to a draft;
* `unclosed_of_lastLine`: a `{` left open on the last line is one that scanning this line finds;
* `ofSource_idle`: the tree, or the error, of a text with an idle section in it.
-/
import BraceTemplate.Proofs.Source.Joining

namespace BraceTemplate

set_option autoImplicit false

open CompileError (Cause)
open Text

/-- What stands between the braces of a comment or of an empty section. -/
inductive Idle : List Char → Prop where
  | empty : Idle []
  | comment {s : List Char} (closed : '}' ∉ s) (inLine : '\n' ∉ s) : Idle ('#' :: s)

/-- A source text with a section in it. -/
def withSection (front contents back : String) : String :=
  front ++ "\x7b" ++ contents ++ "\x7d" ++ back

/-- What stands behind the last newline. -/
def lastLine (s : List Char) : List Char :=
  (s.reverse.takeWhile (· != '\n')).reverse

/-- Source texts that have the same tree, or are refused for one kind of error on one line. -/
inductive ReadAlike :
    Except (Nat × Cause) (List Node) → Except (Nat × Cause) (List Node) → Prop where
  | tree (nodes : List Node) : ReadAlike (.ok nodes) (.ok nodes)
  | error (line : Nat) {cause cause' : Cause} (kind : cause'.kind = cause.kind) :
      ReadAlike (.error (line, cause)) (.error (line, cause'))

theorem ReadAlike.refl (read : Except (Nat × Cause) (List Node)) : ReadAlike read read := by
  cases read with
  | ok nodes => exact .tree nodes
  | error error => exact .error error.1 rfl

/-! ## Idle sections -/

namespace Idle

variable {contents : List Char}

theorem closed (idle : Idle contents) : '}' ∉ contents := by
  cases idle with
  | empty => exact List.not_mem_nil
  | comment closed _ => simpa using closed

theorem inLine (idle : Idle contents) : '\n' ∉ contents := by
  cases idle with
  | empty => exact List.not_mem_nil
  | comment _ inLine => simpa using inLine

theorem asks_none (idle : Idle contents) :
    Directive.ofSection (.ofContents contents) = .ok none := by
  cases idle with
  | empty => rfl
  | @comment s _ _ =>
      have other : isBlank '#' = false := by decide
      have kept : trim ('#' :: s) = '#' :: trimEnd s := by
        rw [trim, trimStart, List.dropWhile_cons_of_neg (Bool.eq_false_iff.1 other)]
        exact trimEnd_append_cons [] other s
      rw [Section.ofContents, kept]
      rfl

/-- A draft takes an idle section as if it were not there. -/
theorem addAll (idle : Idle contents) (front back : List (Nat × Section)) (line : Nat) (d : Draft) :
    d.addAll (front ++ (line, .ofContents contents) :: back) = d.addAll (front ++ back) := by
  refine Draft.addAll_congr (fun e => ?_) front d
  rw [Draft.addAll, Draft.addSection, idle.asks_none]

end Idle

/-! ## The last line -/

theorem lastLine_append {b : List Char} (inLine : '\n' ∉ b) (a : List Char) :
    lastLine (a ++ b) = lastLine a ++ b := by
  have kept : '\n' ∉ b.reverse := fun mem => inLine (List.mem_reverse.1 mem)
  rw [lastLine, List.reverse_append, List.takeWhile_append_of_pos (bne_of_not_mem kept),
    List.reverse_append, List.reverse_reverse]
  rfl

theorem lastLine_of_not_mem {s : List Char} (inLine : '\n' ∉ s) : lastLine s = s :=
  lastLine_append inLine []

theorem lastLine_newline (a b : List Char) : lastLine (a ++ '\n' :: b) = lastLine b := by
  have stops : ('\n' :: a.reverse).takeWhile (· != '\n') = [] := by simp
  rw [lastLine, List.reverse_append, List.reverse_cons, List.append_assoc, List.singleton_append,
    List.takeWhile_append, stops, lastLine]
  split
  · rename_i whole
    rw [List.append_nil, (List.takeWhile_prefix (· != '\n')).eq_of_length whole]
  · rfl

/-- An earlier newline does not matter where there is a later one. -/
theorem lastLine_append_of_mem {b : List Char} (newline : '\n' ∈ b) (a : List Char) :
    lastLine (a ++ b) = lastLine b := by
  obtain ⟨before, behind, rfl⟩ := List.append_of_mem newline
  rw [← List.append_assoc, lastLine_newline, lastLine_newline]

theorem not_mem_lastLine (s : List Char) : '\n' ∉ lastLine s := by
  intro mem
  have other := List.all_eq_true.1 List.all_takeWhile '\n' (List.mem_reverse.1 mem)
  simp at other

/-- The last line of a text that consists of pieces consists of pieces. -/
theorem Pieces.lastLine {line : Nat} {s : List Char} {sections : List (Nat × Section)}
    (pieces : Pieces line s sections) : ∃ line' more, Pieces line' (lastLine s) more := by
  by_cases newline : '\n' ∈ s
  · induction pieces with
    | done => cases newline
    | @run _ run rest _ _ _ inLine _ pieces ih =>
        have later : '\n' ∈ rest := (List.mem_append.1 newline).resolve_left inLine
        rw [lastLine_append_of_mem later]
        exact ih later
    | @lineEnd line run rest _ _ _ pieces ih =>
        rw [lastLine_newline]
        by_cases later : '\n' ∈ rest
        · exact ih later
        · rw [lastLine_of_not_mem later]
          exact ⟨_, _, pieces⟩
    | @braces _ contents rest _ _ inLine pieces ih =>
        have shape : '{' :: (contents ++ '}' :: rest) = ('{' :: (contents ++ ['}'])) ++ rest := by
          simp
        have inLine' : '\n' ∉ '{' :: (contents ++ ['}']) := by simpa using inLine
        rw [shape] at newline ⊢
        have later : '\n' ∈ rest := (List.mem_append.1 newline).resolve_left inLine'
        rw [lastLine_append_of_mem later]
        exact ih later
  · rw [lastLine_of_not_mem newline]
    exact ⟨line, sections, pieces⟩

theorem ofLines_of_not_mem {s : List Char} (nonempty : s ≠ []) (inLine : '\n' ∉ s) (line : Nat) :
    Section.ofLines line (lines s) = (Section.scan s).map (line, ·) := by
  have one := lines_append nonempty inLine []
  rw [List.append_nil] at one
  rw [one]
  simp [lines, Section.ofLines]

/-- Scanning the last line finds a `{` that is left open there. -/
theorem unclosed_of_lastLine {line : Nat} {before after : List Char}
    {sections : List (Nat × Section)} (pieces : Pieces line before sections)
    (unclosed : '}' ∉ restOfLine after) (inLine : '\n' ∉ after) :
    ∃ column, Section.unclosed column ∈ Section.scan (lastLine (before ++ '{' :: after)) := by
  obtain ⟨line', more, pieces⟩ := pieces.lastLine
  obtain ⟨column, behind, found⟩ := pieces.sections_open unclosed
  have inLine' : '\n' ∉ '{' :: after := by simpa using inLine
  rw [lastLine_append inLine']
  have whole : '\n' ∉ lastLine before ++ '{' :: after := by
    rw [List.mem_append, not_or]
    exact ⟨not_mem_lastLine before, inLine'⟩
  have nonempty : lastLine before ++ '{' :: after ≠ [] := by simp
  rw [ofLines_of_not_mem nonempty whole] at found
  have mem : (line' + (lastLine before).count '\n', Section.unclosed column) ∈
      (Section.scan (lastLine before ++ '{' :: after)).map (line', ·) := by
    rw [found]
    exact List.mem_append_right more List.mem_cons_self
  obtain ⟨piece, mem, same⟩ := List.mem_map.1 mem
  obtain ⟨-, rfl⟩ := Prod.mk.inj same
  exact ⟨column, mem⟩

/-! ## A `{` that is left open -/

/-- Where a `{` is left open, a text is refused on the line of this `{`, if it is not before. -/
theorem ofSource_open {before after : List Char} {pieces : List (Nat × Section)}
    (upTo : Pieces 1 before pieces) (unclosed : '}' ∉ restOfLine after) :
    ∃ column, Node.ofSource (before ++ '{' :: after) =
      match Draft.empty.addAll pieces with
      | .ok _ => .error (1 + before.count '\n', .unclosedBrace column)
      | .error error => .error error := by
  obtain ⟨column, more, found⟩ := upTo.sections_open unclosed
  refine ⟨column, ?_⟩
  rw [Node.ofSource, Section.ofSource, found, Draft.addAll_append]
  cases Draft.empty.addAll pieces with
  | ok d => rfl
  | error error => rfl

theorem readAlike_open {before before' after after' : List Char}
    {pieces pieces' : List (Nat × Section)} (upTo : Pieces 1 before pieces)
    (upTo' : Pieces 1 before' pieces')
    (same : Draft.empty.addAll pieces' = Draft.empty.addAll pieces)
    (lines : before'.count '\n' = before.count '\n') (unclosed : '}' ∉ restOfLine after)
    (unclosed' : '}' ∉ restOfLine after') :
    ReadAlike (Node.ofSource (before ++ '{' :: after))
      (Node.ofSource (before' ++ '{' :: after')) := by
  obtain ⟨column, read⟩ := ofSource_open upTo unclosed
  obtain ⟨column', read'⟩ := ofSource_open upTo' unclosed'
  rw [read, read', same, lines]
  cases Draft.empty.addAll pieces with
  | ok d => exact .error _ rfl
  | error error => exact .refl _

/-! ## A text with an idle section in it -/

section

variable {front contents back : List Char}

theorem restOfLine_append {a : List Char} (newline : '\n' ∈ a) (b : List Char) :
    restOfLine (a ++ b) = restOfLine a := by
  obtain ⟨before, behind, rfl, inLine⟩ := List.eq_append_cons_of_mem newline
  have first : ∀ rest, restOfLine (before ++ '\n' :: rest) = before := by
    intro rest
    rw [restOfLine, List.takeWhile_append_of_pos (bne_of_not_mem inLine)]
    simp
  rw [List.append_assoc, List.cons_append, first, first]

/-- Between two texts that consist of pieces, an idle section makes no difference to a draft. -/
theorem Idle.exists_pieces (idle : Idle contents) {line : Nat} {p q : List (Nat × Section)}
    (first : Pieces line front p) (second : Pieces (line + front.count '\n') back q) :
    ∃ without within, Pieces line (front ++ back) without ∧
      Pieces line (front ++ '{' :: (contents ++ '}' :: back)) within ∧
      ∀ d : Draft, d.addAll within = d.addAll without := by
  obtain ⟨joined, whole, same⟩ := first.exists_joined second
  have around := first.append (.inr ⟨_, rfl⟩) (.braces idle.closed idle.inLine second)
  exact ⟨joined, _, whole, around, fun d => (idle.addAll p q _ d).trans (same d).symm⟩

/-- With an idle section where a section can begin, a text has the same tree, or is refused
alike. -/
theorem ofSource_idle (idle : Idle contents)
    (outside : ∀ column, Section.unclosed column ∉ Section.scan (lastLine front)) :
    ReadAlike (Node.ofSource (front ++ back))
      (Node.ofSource (front ++ '{' :: (contents ++ '}' :: back))) := by
  rcases pieces_or_open 1 front with ⟨p, first⟩ | ⟨before, after, p, rfl, upTo, unclosed⟩
  · rcases pieces_or_open (1 + front.count '\n') back with
      ⟨q, second⟩ | ⟨before, after, q, rfl, second, unclosed⟩
    · obtain ⟨_, _, without, within, same⟩ := idle.exists_pieces first second
      rw [Node.ofSource, Node.ofSource, Section.ofSource, Section.ofSource, without.sections_eq,
        within.sections_eq, same]
      exact .refl _
    · obtain ⟨_, _, without, within, same⟩ := idle.exists_pieces first second
      have alike := readAlike_open without within (same _)
        (by simp [List.count_eq_zero_of_not_mem idle.inLine]) unclosed unclosed
      simpa using alike
  · by_cases newline : '\n' ∈ after
    · -- Both texts are refused at the `{`, whatever stands behind its line.
      have unclosed' : ∀ rest, '}' ∉ restOfLine (after ++ rest) := by
        intro rest
        rwa [restOfLine_append newline]
      rw [List.append_assoc, List.append_assoc, List.cons_append, List.cons_append]
      exact readAlike_open upTo upTo rfl rfl (unclosed' _) (unclosed' _)
    · obtain ⟨column, mem⟩ := unclosed_of_lastLine upTo unclosed newline
      exact absurd mem (outside column)

end

theorem toList_withSection (front contents back : String) :
    (withSection front contents back).toList =
      front.toList ++ '{' :: (contents.toList ++ '}' :: back.toList) := by
  have opens : "\x7b".toList = ['{'] := by decide
  have closes : "\x7d".toList = ['}'] := by decide
  simp only [withSection, String.toList_append, opens, closes, List.append_assoc,
    List.cons_append, List.nil_append]

/-- **Comments and empty sections never matter.** Where the last line of a text leaves no section
open, a comment or an empty section behind it makes no difference: with it and without it, whatever
follows, the source compiles to the same template, with the same operations, lines, blocks and
slots, or is refused for the same kind of error on the same line. -/
theorem compile_withSection {front contents back : String}
    (outside : ∀ column, Section.unclosed column ∉ Section.scan (lastLine front.toList))
    (idle : Idle contents.toList) (name : String) :
    (∃ t, Template.compile name (front ++ back) = .ok t ∧
        Template.compile name (withSection front contents back) = .ok t) ∨
      ∃ e e', Template.compile name (front ++ back) = .error e ∧
        Template.compile name (withSection front contents back) = .error e' ∧
        e'.cause.kind = e.cause.kind ∧ e'.line = e.line := by
  have alike : ReadAlike (Node.ofSource (front.toList ++ back.toList)) _ :=
    ofSource_idle idle outside
  rw [← toList_withSection, ← String.toList_append] at alike
  simp only [Template.compile_eq]
  generalize Node.ofSource (front ++ back).toList = read at alike ⊢
  generalize Node.ofSource (withSection front contents back).toList = read' at alike ⊢
  cases alike with
  | tree nodes => exact .inl ⟨_, rfl, rfl⟩
  | error line kind => exact .inr ⟨_, _, rfl, rfl, kind, rfl⟩

set_option maxRecDepth 2000 in
/-- A comment in the middle of a text inside a block, behind a line with a section of its own. -/
theorem compile_withSection_text :
    let front := "\x7b$v\x7d\n\x7b%block b%\x7dx"
    let contents := "# \x7b$w"
    let back := "y\x7b%endblock%\x7d"
    let t := Template.ofNodes "page"
      [.output 1 ⟨"v", [], []⟩, .text 1 "\n", .block 2 "b" [.text 2 "xy"] 2]
    (∀ column, Section.unclosed column ∉ Section.scan (lastLine front.toList)) ∧
      Idle contents.toList ∧ Template.compile "page" (front ++ back) = .ok t ∧
      Template.compile "page" (withSection front contents back) = .ok t := by
  intro front contents back t
  have last : Section.scan (lastLine front.toList) = [.action "block b".toList, .text ['x']] := by
    cbv
  have outside : ∀ column, Section.unclosed column ∉ Section.scan (lastLine front.toList) := by
    rw [last]
    simp
  have written : contents.toList = '#' :: " \x7b$w".toList := by decide
  have idle : Idle contents.toList := by
    rw [written]
    exact .comment (by decide) (by decide)
  have compiled : Template.compile "page" (front ++ back) = .ok t :=
    Template.compile_eq_ok_iff.2 ⟨_, by cbv, rfl⟩
  refine ⟨outside, idle, compiled, ?_⟩
  rcases compile_withSection outside idle "page" with ⟨t', one, both⟩ | ⟨e, e', one, -⟩
  · rw [both, ← one, compiled]
  · rw [compiled] at one
    cases one

end BraceTemplate
