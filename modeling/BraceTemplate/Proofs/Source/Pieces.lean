/-
# BraceTemplate.Proofs.Source.Pieces — a source text is texts and sections in a row

`Pieces line s sections` says that the text `s`, which begins on a line outside sections, is a row
of pieces: runs of text, each up to the next `{` or the end of its line, and sections in braces,
each closed on its line. `Outside s` says that there are such pieces, so a `{` behind `s` opens a
section.

* `Pieces.sections_eq`: the pieces are those that scanning line by line finds;
* `pieces_or_open`: every text either consists of pieces or has a first `{` that its line does not
  close, and scanning finds the pieces before it, then this brace (`Pieces.sections_open`);
* `Pieces.append`: rows of pieces are joined where the second begins with a section.
-/
import BraceTemplate.Section

namespace BraceTemplate

set_option autoImplicit false

open Text

/-- A text that begins on a given line, outside sections, consists of pieces in a row. -/
inductive Pieces : Nat → List Char → List (Nat × Section) → Prop where
  | done (line : Nat) : Pieces line [] []
  /-- A text up to the next section or the end of the source. -/
  | run {line : Nat} {run rest : List Char} {sections : List (Nat × Section)} (nonempty : run ≠ [])
      (plain : '{' ∉ run) (inLine : '\n' ∉ run) (ends : rest = [] ∨ ∃ more, rest = '{' :: more) :
      Pieces line rest sections → Pieces line (run ++ rest) ((line, .text run) :: sections)
  /-- A text up to the end of its line. -/
  | lineEnd {line : Nat} {run rest : List Char} {sections : List (Nat × Section)}
      (plain : '{' ∉ run) (inLine : '\n' ∉ run) :
      Pieces (line + 1) rest sections →
        Pieces line (run ++ '\n' :: rest) ((line, .text (run ++ ['\n'])) :: sections)
  /-- A section. -/
  | braces {line : Nat} {contents rest : List Char} {sections : List (Nat × Section)}
      (closed : '}' ∉ contents) (inLine : '\n' ∉ contents) :
      Pieces line rest sections →
        Pieces line ('{' :: (contents ++ '}' :: rest)) ((line, .ofContents contents) :: sections)

/-- A source text ends outside sections: a `{` behind it opens one. -/
def Outside (s : List Char) : Prop :=
  ∃ sections, Pieces 1 s sections

/-- What a line still holds. -/
def restOfLine (s : List Char) : List Char :=
  s.takeWhile (· != '\n')

/-! ## Lines -/

/-- A text is what its first line holds, alone or with a newline and more behind it. -/
theorem restOfLine_cases (s : List Char) :
    '\n' ∉ restOfLine s ∧ (s = restOfLine s ∨ ∃ more, s = restOfLine s ++ '\n' :: more) := by
  induction s with
  | nil => exact ⟨List.not_mem_nil, .inl rfl⟩
  | cons c s ih =>
      by_cases newline : c = '\n'
      · subst newline
        exact ⟨List.not_mem_nil, .inr ⟨s, rfl⟩⟩
      · have kept : restOfLine (c :: s) = c :: restOfLine s := by
          simp [restOfLine, newline]
        rw [kept]
        refine ⟨?_, ?_⟩
        · intro mem
          rcases List.mem_cons.1 mem with same | mem
          · exact newline same.symm
          · exact ih.1 mem
        · rcases ih.2 with same | ⟨more, same⟩
          · exact .inl (congrArg (c :: ·) same)
          · exact .inr ⟨more, congrArg (c :: ·) same⟩

/-! ## Scanning from the middle of a line -/

namespace Section

/-- The sections of a text that begins on a given line, at a given byte of it. -/
def resume (line column : Nat) (s : List Char) : List (Nat × Section) :=
  match lines s with
  | [] => []
  | first :: rest => (scanFrom column first).map (line, ·) ++ ofLines (line + 1) rest

theorem ofLines_eq_resume (line : Nat) (s : List Char) :
    ofLines line (lines s) = resume line 0 s := by
  rw [resume]
  cases lines s <;> rfl

theorem scanFrom_nil (column : Nat) : scanFrom column [] = [] :=
  Scanner.pieces_of_next?_eq_none rfl

theorem scanFrom_run {run : List Char} (nonempty : run ≠ []) (plain : '{' ∉ run) (column : Nat)
    {rest : List Char} (ends : rest = [] ∨ ∃ more, rest = '{' :: more) :
    scanFrom column (run ++ rest) =
      .text run :: scanFrom (column + byteLength run) rest := by
  cases run with
  | nil => exact absurd rfl nonempty
  | cons c run =>
      have noBrace := bne_of_not_mem plain
      have first : (c == '{') = false := by simpa using noBrace c List.mem_cons_self
      have others : ∀ d ∈ run, (d != '{') = true :=
        fun d mem => noBrace d (List.mem_cons_of_mem c mem)
      have taken : (run ++ rest).takeWhile (· != '{') = run := by
        rw [List.takeWhile_append_of_pos others]
        rcases ends with rfl | ⟨more, rfl⟩ <;> simp
      have dropped : (run ++ rest).dropWhile (· != '{') = rest := by
        rw [List.dropWhile_append_of_pos others]
        rcases ends with rfl | ⟨more, rfl⟩ <;> simp
      refine Scanner.pieces_of_next? ?_
      simp only [Scanner.next?, List.cons_append, first, taken, dropped]
      rfl

theorem scanFrom_braces {contents : List Char} (closed : '}' ∉ contents) (column : Nat)
    (rest : List Char) :
    scanFrom column ('{' :: (contents ++ '}' :: rest)) =
      ofContents contents :: scanFrom (column + byteLength contents + 2) rest := by
  refine Scanner.pieces_of_next? ?_
  simp only [Scanner.next?, beq_self_eq_true, cutAt?_append_char closed rest]
  rfl

theorem scanFrom_open {after : List Char} (unclosed : '}' ∉ after) (column : Nat) :
    scanFrom column ('{' :: after) = [.unclosed column] := by
  have cut : cutAt? (· == '}') after = none :=
    cutAt?_eq_none_iff.2 (beq_of_not_mem unclosed)
  have found : Scanner.next? ⟨'{' :: after, column, false⟩ =
      some (.unclosed column, ⟨'{' :: after, column, true⟩) := by
    simp only [Scanner.next?, beq_self_eq_true, cut]
    rfl
  rw [scanFrom, Scanner.pieces_of_next? found, Scanner.pieces_of_next?_eq_none rfl]

theorem resume_run {run : List Char} (nonempty : run ≠ []) (plain : '{' ∉ run)
    (inLine : '\n' ∉ run) (line column : Nat) {rest : List Char}
    (ends : rest = [] ∨ ∃ more, rest = '{' :: more) :
    resume line column (run ++ rest) =
      (line, .text run) :: resume line (column + byteLength run) rest := by
  have first : (lines rest).headD [] = [] ∨ ∃ more, (lines rest).headD [] = '{' :: more := by
    rcases ends with rfl | ⟨more, rfl⟩
    · exact .inl rfl
    · have := lines_append (a := ['{']) (by simp) (by decide) more
      rw [List.singleton_append] at this
      exact .inr ⟨_, by rw [this]; rfl⟩
  rw [resume, lines_append nonempty inLine, resume]
  simp only [scanFrom_run nonempty plain column first, List.map_cons, List.cons_append]
  cases lines rest with
  | nil => simp [scanFrom_nil, ofLines]
  | cons => rfl

theorem resume_lineEnd {run : List Char} (plain : '{' ∉ run) (inLine : '\n' ∉ run)
    (line column : Nat) (rest : List Char) :
    resume line column (run ++ '\n' :: rest) =
      (line, .text (run ++ ['\n'])) :: resume (line + 1) 0 rest := by
  have whole : scanFrom column (run ++ ['\n']) = [.text (run ++ ['\n'])] := by
    have plain' : '{' ∉ run ++ ['\n'] := by simpa using plain
    have nonempty : run ++ ['\n'] ≠ [] :=
      List.append_ne_nil_of_right_ne_nil _ (List.cons_ne_nil _ _)
    have found := scanFrom_run nonempty plain' column (.inl rfl)
    rw [List.append_nil] at found
    rw [found, scanFrom_nil]
  rw [resume, lines_newline inLine]
  simp only [whole, ofLines_eq_resume]
  rfl

theorem resume_braces {contents : List Char} (closed : '}' ∉ contents) (inLine : '\n' ∉ contents)
    (line column : Nat) (rest : List Char) :
    resume line column ('{' :: (contents ++ '}' :: rest)) =
      (line, .ofContents contents) :: resume line (column + byteLength contents + 2) rest := by
  have inLine' : '\n' ∉ '{' :: (contents ++ ['}']) := by simpa using inLine
  have shape : '{' :: (contents ++ '}' :: rest) = ('{' :: (contents ++ ['}'])) ++ rest := by simp
  have again : ('{' :: (contents ++ ['}'])) ++ (lines rest).headD [] =
      '{' :: (contents ++ '}' :: (lines rest).headD []) := by simp
  rw [shape, resume, lines_append (by simp) inLine', resume]
  simp only [again, scanFrom_braces closed, List.map_cons, List.cons_append]
  cases lines rest with
  | nil => simp [scanFrom_nil, ofLines]
  | cons => rfl

theorem resume_open {after : List Char} (unclosed : '}' ∉ restOfLine after) (line column : Nat) :
    ∃ more, resume line column ('{' :: after) = (line, .unclosed column) :: more := by
  obtain ⟨inLine, shape⟩ := restOfLine_cases after
  have inLine' : '\n' ∉ '{' :: restOfLine after := by simpa using inLine
  rcases shape with same | ⟨more, same⟩
  · have first := lines_append (List.cons_ne_nil _ _) inLine' []
    rw [List.append_nil, ← same] at first
    rw [← same] at unclosed
    rw [resume, first]
    simp [lines, scanFrom_open unclosed]
  · have first := lines_newline inLine' more
    rw [List.cons_append, ← same] at first
    have unclosed' : '}' ∉ restOfLine after ++ ['\n'] := by simpa using unclosed
    rw [resume, first]
    simp only [List.cons_append, scanFrom_open unclosed']
    exact ⟨_, rfl⟩

end Section

/-! ## Pieces are what scanning finds -/

namespace Pieces

variable {line : Nat} {s next : List Char} {sections more : List (Nat × Section)}

/-- Scanning finds the pieces and then what the text behind them holds. -/
theorem resume_append (pieces : Pieces line s sections)
    (ends : next = [] ∨ ∃ more, next = '{' :: more) (column : Nat) :
    ∃ column', Section.resume line column (s ++ next) =
      sections ++ Section.resume (line + s.count '\n') column' next := by
  induction pieces generalizing column with
  | done line => exact ⟨column, rfl⟩
  | @run line run rest sections nonempty plain inLine ends' _ ih =>
      have ends'' : rest ++ next = [] ∨ ∃ more, rest ++ next = '{' :: more := by
        rcases ends' with rfl | ⟨more, rfl⟩
        · exact ends
        · exact .inr ⟨_, rfl⟩
      obtain ⟨column', found⟩ := ih (column + byteLength run)
      refine ⟨column', ?_⟩
      rw [List.append_assoc, Section.resume_run nonempty plain inLine line column ends'', found,
        List.count_append, List.count_eq_zero_of_not_mem inLine, Nat.zero_add]
      rfl
  | @lineEnd line run rest sections plain inLine _ ih =>
      obtain ⟨column', found⟩ := ih 0
      refine ⟨column', ?_⟩
      rw [List.append_assoc, List.cons_append, Section.resume_lineEnd plain inLine line column,
        found, List.count_append, List.count_eq_zero_of_not_mem inLine, List.count_cons_self,
        Nat.zero_add, Nat.add_right_comm, ← Nat.add_assoc]
      rfl
  | @braces line contents rest sections closed inLine _ ih =>
      obtain ⟨column', found⟩ := ih (column + byteLength contents + 2)
      refine ⟨column', ?_⟩
      have none : ('{' :: (contents ++ '}' :: rest)).count '\n' = rest.count '\n' := by
        simp [List.count_eq_zero_of_not_mem inLine]
      rw [none, List.cons_append, List.append_assoc, List.cons_append,
        Section.resume_braces closed inLine line column, found]
      rfl

/-- Scanning a text line by line finds its pieces. -/
theorem sections_eq (pieces : Pieces line s sections) :
    Section.ofLines line (lines s) = sections := by
  have ends : ([] : List Char) = [] ∨ ∃ more, ([] : List Char) = '{' :: more := .inl rfl
  obtain ⟨column, found⟩ := pieces.resume_append ends 0
  rw [List.append_nil] at found
  rw [Section.ofLines_eq_resume, found]
  exact List.append_nil _

/-- Behind pieces, scanning finds an open brace that its line does not close. -/
theorem sections_open (pieces : Pieces line s sections) {after : List Char}
    (unclosed : '}' ∉ restOfLine after) :
    ∃ column more, Section.ofLines line (lines (s ++ '{' :: after)) =
      sections ++ (line + s.count '\n', .unclosed column) :: more := by
  have ends : '{' :: after = [] ∨ ∃ more, '{' :: after = '{' :: more := .inr ⟨after, rfl⟩
  obtain ⟨column, found⟩ := pieces.resume_append ends 0
  obtain ⟨more, rest⟩ := Section.resume_open unclosed (line + s.count '\n') column
  exact ⟨column, more, by rw [Section.ofLines_eq_resume, found, rest]⟩

/-- Rows of pieces are joined where the second one begins with a section. -/
theorem append (pieces : Pieces line s sections) (ends : next = [] ∨ ∃ more, next = '{' :: more)
    (behind : Pieces (line + s.count '\n') next more) :
    Pieces line (s ++ next) (sections ++ more) := by
  induction pieces with
  | done line => simpa using behind
  | @run line run rest sections nonempty plain inLine ends' _ ih =>
      rw [List.count_append, List.count_eq_zero_of_not_mem inLine, Nat.zero_add] at behind
      rw [List.append_assoc]
      refine .run nonempty plain inLine ?_ (ih behind)
      rcases ends' with rfl | ⟨more, rfl⟩
      · exact ends
      · exact .inr ⟨_, rfl⟩
  | @lineEnd line run rest sections plain inLine _ ih =>
      rw [List.count_append, List.count_eq_zero_of_not_mem inLine, List.count_cons_self,
        Nat.zero_add, ← Nat.add_assoc, Nat.add_right_comm] at behind
      rw [List.append_assoc, List.cons_append]
      exact .lineEnd plain inLine (ih behind)
  | @braces line contents rest sections closed inLine _ ih =>
      have none : ('{' :: (contents ++ '}' :: rest)).count '\n' = rest.count '\n' := by
        simp [List.count_eq_zero_of_not_mem inLine]
      rw [none] at behind
      rw [List.cons_append, List.append_assoc, List.cons_append]
      exact .braces closed inLine (ih behind)

/-- The same pieces on other lines. -/
theorem shift (pieces : Pieces line s sections) (k : Nat) :
    Pieces (line + k) s (sections.map fun piece => (piece.1 + k, piece.2)) := by
  induction pieces with
  | done line => exact .done _
  | run nonempty plain inLine ends _ ih => exact .run nonempty plain inLine ends ih
  | lineEnd plain inLine _ ih =>
      rw [Nat.add_right_comm] at ih
      exact .lineEnd plain inLine ih
  | braces closed inLine _ ih => exact .braces closed inLine ih

/-- The pieces from one on, and those in front of it, make up a text each. -/
theorem split {front back : List (Nat × Section)} {piece : Nat × Section}
    (pieces : Pieces line s (front ++ piece :: back)) :
    ∃ before rest, s = before ++ rest ∧ Pieces line before front ∧
      Pieces (line + before.count '\n') rest (piece :: back) := by
  induction front generalizing line s with
  | nil => exact ⟨[], s, rfl, .done line, by simpa using pieces⟩
  | cons first front ih =>
      cases pieces with
      | @run line run rest sections nonempty plain inLine ends pieces =>
          obtain ⟨before, rest, rfl, front, back⟩ := ih pieces
          refine ⟨run ++ before, rest, (List.append_assoc ..).symm,
            .run nonempty plain inLine ?_ front, ?_⟩
          · cases before with
            | nil => exact .inl rfl
            | cons c before =>
                rcases ends with none | ⟨more, some⟩
                · cases none
                · exact .inr ⟨before, by rw [(List.cons.inj some).1]⟩
          · rwa [List.count_append, List.count_eq_zero_of_not_mem inLine, Nat.zero_add]
      | @lineEnd line run rest sections plain inLine pieces =>
          obtain ⟨before, rest, rfl, front, back⟩ := ih pieces
          refine ⟨run ++ '\n' :: before, rest, by simp, .lineEnd plain inLine front, ?_⟩
          rwa [List.count_append, List.count_eq_zero_of_not_mem inLine, List.count_cons_self,
            Nat.zero_add, ← Nat.add_assoc, Nat.add_right_comm]
      | @braces line contents rest sections closed inLine pieces =>
          obtain ⟨before, rest, rfl, front, back⟩ := ih pieces
          refine ⟨'{' :: (contents ++ '}' :: before), rest, by simp,
            .braces closed inLine front, ?_⟩
          have none : ('{' :: (contents ++ '}' :: before)).count '\n' = before.count '\n' := by
            simp [List.count_eq_zero_of_not_mem inLine]
          rwa [none]

/-- Pieces stand on the line where the text begins or behind it, and none before the one in front
of it. -/
theorem ascending (pieces : Pieces line s sections) :
    (∀ piece ∈ sections, line ≤ piece.1) ∧ sections.Pairwise fun a b => a.1 ≤ b.1 := by
  induction pieces with
  | done => exact ⟨nofun, .nil⟩
  | run _ _ _ _ _ ih | braces _ _ _ ih =>
      rw [List.forall_mem_cons, List.pairwise_cons]
      exact ⟨⟨Nat.le_refl _, ih.1⟩, ih⟩
  | lineEnd _ _ _ ih =>
      have later := fun piece mem => Nat.le_of_succ_le (ih.1 piece mem)
      rw [List.forall_mem_cons, List.pairwise_cons]
      exact ⟨⟨Nat.le_refl _, later⟩, later, ih.2⟩

/-- No text among pieces is empty, and no brace among them is open. -/
theorem sound (pieces : Pieces line s sections) :
    ∀ piece ∈ sections, piece.2 ≠ .text [] ∧ ∀ column, piece.2 ≠ .unclosed column := by
  induction pieces with
  | done => exact nofun
  | run nonempty _ _ _ _ ih =>
      rw [List.forall_mem_cons]
      exact ⟨⟨fun same => nonempty (Section.text.inj same), nofun⟩, ih⟩
  | lineEnd _ _ _ ih =>
      rw [List.forall_mem_cons]
      exact ⟨⟨fun same => by simpa using Section.text.inj same, nofun⟩, ih⟩
  | @braces _ contents _ _ _ _ _ ih =>
      rw [List.forall_mem_cons]
      exact ⟨⟨Section.ofContents_ne_text _ _, Section.ofContents_ne_unclosed _⟩, ih⟩

/-- Text in front of pieces, which may be empty. -/
theorem behind_run {run : List Char} (plain : '{' ∉ run) (inLine : '\n' ∉ run)
    (ends : s = [] ∨ ∃ more, s = '{' :: more) (pieces : Pieces line s sections) :
    ∃ sections, Pieces line (run ++ s) sections := by
  by_cases nonempty : run = []
  · subst nonempty
    exact ⟨_, pieces⟩
  · exact ⟨_, .run nonempty plain inLine ends pieces⟩

end Pieces

/-- A text begins with what stands in front of the first `{` and the first newline. -/
theorem exists_run (s : List Char) :
    ∃ run rest, s = run ++ rest ∧ '{' ∉ run ∧ '\n' ∉ run ∧
      (rest = [] ∨ (∃ more, rest = '{' :: more) ∨ ∃ more, rest = '\n' :: more) := by
  induction s with
  | nil => exact ⟨[], [], rfl, List.not_mem_nil, List.not_mem_nil, .inl rfl⟩
  | cons c s ih =>
      by_cases brace : c = '{'
      · exact ⟨[], _, rfl, List.not_mem_nil, List.not_mem_nil, .inr (.inl ⟨s, by rw [brace]⟩)⟩
      by_cases newline : c = '\n'
      · exact ⟨[], _, rfl, List.not_mem_nil, List.not_mem_nil, .inr (.inr ⟨s, by rw [newline]⟩)⟩
      obtain ⟨run, rest, rfl, plain, inLine, ends⟩ := ih
      refine ⟨c :: run, rest, rfl, ?_, ?_, ends⟩
      · rw [List.mem_cons, not_or]
        exact ⟨Ne.symm brace, plain⟩
      · rw [List.mem_cons, not_or]
        exact ⟨Ne.symm newline, inLine⟩

/-- A section that its line closes ends at the first `}`. -/
theorem exists_contents {s : List Char} (closes : '}' ∈ restOfLine s) :
    ∃ contents rest, s = contents ++ '}' :: rest ∧ '}' ∉ contents ∧ '\n' ∉ contents := by
  obtain ⟨contents, back, shape, closed⟩ := List.eq_append_cons_of_mem closes
  obtain ⟨inLine, whole⟩ := restOfLine_cases s
  have inLine' : '\n' ∉ contents := fun mem => inLine (shape ▸ List.mem_append_left _ mem)
  rcases whole with same | ⟨more, same⟩
  · exact ⟨contents, back, same.trans shape, closed, inLine'⟩
  · exact ⟨contents, back ++ '\n' :: more, by rw [same, shape]; simp, closed, inLine'⟩

/-- A text consists of pieces, or there is a first `{` that its line does not close. -/
theorem pieces_or_open (line : Nat) (s : List Char) :
    (∃ sections, Pieces line s sections) ∨
      ∃ before after sections, s = before ++ '{' :: after ∧ Pieces line before sections ∧
        '}' ∉ restOfLine after := by
  obtain ⟨run, rest, shape, plain, inLine, ends⟩ := exists_run s
  rcases ends with rfl | ⟨more, rfl⟩ | ⟨more, rfl⟩
  · left
    rw [shape]
    exact Pieces.behind_run plain inLine (.inl rfl) (.done line)
  · by_cases closes : '}' ∈ restOfLine more
    · obtain ⟨contents, rest, rfl, closed, inLine'⟩ := exists_contents closes
      have shorter : rest.length < s.length := by
        simp only [shape, List.length_append, List.length_cons]
        omega
      rcases pieces_or_open line rest with ⟨sections, pieces⟩ |
        ⟨before, after, sections, rfl, pieces, unclosed⟩
      · left
        rw [shape]
        exact Pieces.behind_run plain inLine (.inr ⟨_, rfl⟩) (.braces closed inLine' pieces)
      · obtain ⟨_, pieces⟩ := Pieces.behind_run plain inLine (.inr ⟨_, rfl⟩)
          (.braces closed inLine' pieces)
        exact .inr ⟨_, after, _, by rw [shape]; simp, pieces, unclosed⟩
    · obtain ⟨_, pieces⟩ := Pieces.behind_run plain inLine (.inl rfl) (.done line)
      rw [List.append_nil] at pieces
      exact .inr ⟨run, more, _, shape, pieces, closes⟩
  · have shorter : more.length < s.length := by
      simp only [shape, List.length_append, List.length_cons]
      omega
    rcases pieces_or_open (line + 1) more with ⟨sections, pieces⟩ |
      ⟨before, after, sections, rfl, pieces, unclosed⟩
    · left
      rw [shape]
      exact ⟨_, .lineEnd plain inLine pieces⟩
    · exact .inr ⟨run ++ '\n' :: before, after, _, by simp [shape],
        .lineEnd plain inLine pieces, unclosed⟩
  termination_by s.length

end BraceTemplate
