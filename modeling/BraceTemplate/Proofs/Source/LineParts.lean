/-
# BraceTemplate.Proofs.Source.LineParts — a line as texts and sections that take turns

`LineParts` is a line taken apart: a text, then sections in braces with the text behind each one,
and at the end perhaps a `{` that is not closed. No text holds a `{` and no section a `}`, so the
parts carry the proof that a section begins at the first `{` and ends at the first `}` behind it.

* `LineParts.chars_inj`: parts that make up the same line are the same;
* `exists_parts`: every line is made up of parts;
* `LineParts.scan_chars`: scanning a line finds its parts;
* `Scanner.yields_pieces`: what asking a scanner again and again gives, until nothing is left;
* `scan_parts`: all of this for any line, and what it says about the text outside sections.
-/
import BraceTemplate.Proofs.Source.Pieces
import BraceTemplate.Proofs.Text.Padding

namespace BraceTemplate

set_option autoImplicit false

open Text

/-- A line taken apart into its texts, which may be empty, and the sections between them. -/
@[ext]
structure LineParts where
  /-- The text in front of the first section. -/
  first : List Char
  /-- The contents of each section, and the text behind it. -/
  turns : List (List Char × List Char)
  /-- What stands behind a `{` that is not closed, if there is one. -/
  opened : Option (List Char)
  plain : '{' ∉ first
  turns_closed : ∀ turn ∈ turns, '}' ∉ turn.1 ∧ '{' ∉ turn.2
  opened_unclosed : ∀ rest ∈ opened, '}' ∉ rest

/-! ## Sections and the texts behind them -/

/-- A section in braces and the text behind it. -/
def turnChars (turn : List Char × List Char) : List Char :=
  '{' :: (turn.1 ++ '}' :: turn.2)

/-- A `{` and what stands behind it. -/
def openedChars : Option (List Char) → List Char
  | none => []
  | some rest => '{' :: rest

/-- Text outside sections, if there is any. -/
def textSections (s : List Char) : List Section :=
  if s = [] then [] else [.text s]

/-- What a section stands for, and the text behind it. -/
def turnSections (turn : List Char × List Char) : List Section :=
  .ofContents turn.1 :: textSections turn.2

/-- The error of a `{` at a given byte, if there is one that is not closed. -/
def openedSections (column : Nat) : Option (List Char) → List Section
  | none => []
  | some _ => [.unclosed column]

/-- The text of a piece that is text. -/
def Section.outside : Section → List Char
  | .text s => s
  | _ => []

theorem turnChars_cons (turn : List Char × List Char) (turns : List (List Char × List Char))
    (rest : List Char) :
    (turn :: turns).flatMap turnChars ++ rest =
      '{' :: (turn.1 ++ '}' :: (turn.2 ++ (turns.flatMap turnChars ++ rest))) := by
  simp [turnChars]

theorem byteLength_turns (turn : List Char × List Char) (turns : List (List Char × List Char)) :
    byteLength ((turn :: turns).flatMap turnChars) =
      byteLength turn.1 + 2 + byteLength turn.2 + byteLength (turns.flatMap turnChars) := by
  have opens : '{'.utf8Size = 1 := by decide
  have closes : '}'.utf8Size = 1 := by decide
  rw [List.flatMap_cons, turnChars, byteLength_append, byteLength_cons, byteLength_append,
    byteLength_cons, opens, closes]
  omega

theorem openedChars_inj {opened opened' : Option (List Char)}
    (same : openedChars opened = openedChars opened') : opened = opened' := by
  cases opened <;> cases opened' <;> simp_all [openedChars]

/-- Behind a text stands nothing or a `{`. -/
theorem turns_begin (turns : List (List Char × List Char)) (opened : Option (List Char)) :
    turns.flatMap turnChars ++ openedChars opened = [] ∨
      ∃ more, turns.flatMap turnChars ++ openedChars opened = '{' :: more := by
  cases turns with
  | cons turn turns => exact .inr ⟨_, rfl⟩
  | nil =>
      cases opened with
      | none => exact .inl rfl
      | some rest => exact .inr ⟨rest, rfl⟩

namespace LineParts

/-- The part of a line that can be read: all of it, or what stands in front of the `{` that is not
closed. -/
def closedChars (parts : LineParts) : List Char :=
  parts.first ++ parts.turns.flatMap turnChars

/-- The line that parts make up. -/
def chars (parts : LineParts) : List Char :=
  parts.closedChars ++ openedChars parts.opened

/-- The pieces that parts are: the texts that are not empty, what each section stands for, and at
the end the `{` that is not closed, if there is one, with the number of bytes in front of it. -/
def sections (parts : LineParts) : List Section :=
  textSections parts.first ++ parts.turns.flatMap turnSections ++
    openedSections (String.ofList parts.closedChars).utf8ByteSize parts.opened

/-- The text outside sections. -/
def outside (parts : LineParts) : List Char :=
  parts.first ++ parts.turns.flatMap Prod.snd

end LineParts

/-! ## A line has one division -/

/-- A text without `{` in front of nothing or of a `{` is what stands in front of the first `{`. -/
theorem plain_append_inj {s s' rest rest' : List Char} (plain : '{' ∉ s) (plain' : '{' ∉ s')
    (ends : rest = [] ∨ ∃ more, rest = '{' :: more)
    (ends' : rest' = [] ∨ ∃ more, rest' = '{' :: more) (same : s ++ rest = s' ++ rest') :
    s = s' ∧ rest = rest' := by
  rcases ends with rfl | ⟨more, rfl⟩
  · rcases ends' with rfl | ⟨more', rfl⟩
    · simpa using same
    · rw [List.append_nil] at same
      exact absurd (same ▸ List.mem_append_right s' List.mem_cons_self) plain
  · rcases ends' with rfl | ⟨more', rfl⟩
    · rw [List.append_nil] at same
      exact absurd (same ▸ List.mem_append_right s List.mem_cons_self) plain'
    · obtain ⟨rfl, rfl⟩ := append_cons_inj plain plain' same
      exact ⟨rfl, rfl⟩

/-- Where a section is closed, no `{` is left open instead. -/
theorem opened_ne_turn {opened : Option (List Char)} (unclosed : ∀ rest ∈ opened, '}' ∉ rest)
    (contents rest : List Char) : openedChars opened ≠ '{' :: (contents ++ '}' :: rest) := by
  intro same
  cases opened with
  | none => cases same
  | some left =>
      obtain rfl := (List.cons.inj same).2
      exact unclosed _ rfl (List.mem_append_right contents List.mem_cons_self)

/-- The sections of a text, and the texts behind them, are settled by the text. -/
theorem turns_inj {turns turns' : List (List Char × List Char)}
    {opened opened' : Option (List Char)}
    (closed : ∀ turn ∈ turns, '}' ∉ turn.1 ∧ '{' ∉ turn.2)
    (closed' : ∀ turn ∈ turns', '}' ∉ turn.1 ∧ '{' ∉ turn.2)
    (unclosed : ∀ rest ∈ opened, '}' ∉ rest) (unclosed' : ∀ rest ∈ opened', '}' ∉ rest)
    (same : turns.flatMap turnChars ++ openedChars opened =
      turns'.flatMap turnChars ++ openedChars opened') : turns = turns' ∧ opened = opened' := by
  induction turns generalizing turns' with
  | nil =>
      cases turns' with
      | nil => exact ⟨rfl, openedChars_inj same⟩
      | cons turn turns' =>
          rw [turnChars_cons] at same
          exact absurd same (opened_ne_turn unclosed turn.1 _)
  | cons turn turns ih =>
      cases turns' with
      | nil =>
          rw [turnChars_cons] at same
          exact absurd same.symm (opened_ne_turn unclosed' turn.1 _)
      | cons turn' turns' =>
          rw [List.forall_mem_cons] at closed closed'
          rw [turnChars_cons, turnChars_cons] at same
          obtain ⟨contents, same⟩ := append_cons_inj closed.1.1 closed'.1.1 (List.cons.inj same).2
          obtain ⟨text, same⟩ := plain_append_inj closed.1.2 closed'.1.2 (turns_begin turns opened)
            (turns_begin turns' opened') same
          obtain ⟨rfl, rfl⟩ := ih closed.2 closed'.2 same
          exact ⟨congrArg (· :: turns) (Prod.ext contents text), rfl⟩

/-- Parts that make up the same line are the same. -/
theorem LineParts.chars_inj {parts parts' : LineParts} (same : parts.chars = parts'.chars) :
    parts = parts' := by
  simp only [chars, closedChars, List.append_assoc] at same
  obtain ⟨first, same⟩ := plain_append_inj parts.plain parts'.plain
    (turns_begin parts.turns parts.opened) (turns_begin parts'.turns parts'.opened) same
  obtain ⟨turns, opened⟩ := turns_inj parts.turns_closed parts'.turns_closed
    parts.opened_unclosed parts'.opened_unclosed same
  exact LineParts.ext first turns opened

/-- Every line is made up of parts. -/
theorem exists_parts (line : List Char) : ∃ parts : LineParts, parts.chars = line := by
  by_cases brace : '{' ∈ line
  · obtain ⟨first, after, rfl, plain⟩ := List.eq_append_cons_of_mem brace
    by_cases closes : '}' ∈ after
    · obtain ⟨contents, rest, rfl, closed⟩ := List.eq_append_cons_of_mem closes
      obtain ⟨parts, rfl⟩ := exists_parts rest
      refine ⟨⟨first, (contents, parts.first) :: parts.turns, parts.opened, plain,
        List.forall_mem_cons.2 ⟨⟨closed, parts.plain⟩, parts.turns_closed⟩,
        parts.opened_unclosed⟩, ?_⟩
      simp [LineParts.chars, LineParts.closedChars, turnChars]
    · refine ⟨⟨first, [], some after, plain, nofun, ?_⟩, ?_⟩
      · rintro rest ⟨⟩
        exact closes
      · simp [LineParts.chars, LineParts.closedChars, openedChars]
  · exact ⟨⟨line, [], none, brace, nofun, nofun⟩, by
      simp [LineParts.chars, LineParts.closedChars, openedChars]⟩
  termination_by line.length

/-! ## A scanner and what it finds -/

namespace Scanner

/-- Asking a scanner again and again gives pieces in a row and leads to another one. -/
inductive Yields : Scanner → List Section → Scanner → Prop where
  | done (s : Scanner) : Yields s [] s
  | next {s after last : Scanner} {piece : Section} {pieces : List Section}
      (found : s.next? = some (piece, after)) :
      Yields after pieces last → Yields s (piece :: pieces) last

/-- A scanner gives its pieces, and then no more. -/
theorem yields_pieces (s : Scanner) : ∃ last, s.Yields s.pieces last ∧ last.next? = none := by
  cases found : s.next? with
  | none =>
      rw [pieces_of_next?_eq_none found]
      exact ⟨s, .done s, found⟩
  | some step =>
      obtain ⟨piece, after⟩ := step
      have shorter := left_lt_of_next? found
      obtain ⟨last, yields, ends⟩ := yields_pieces after
      rw [pieces_of_next? found]
      exact ⟨last, .next found yields, ends⟩
  termination_by s.left

end Scanner

/-! ## Scanning finds the parts -/

namespace Section

/-- Text in front of a section, which may be empty. -/
theorem scanFrom_text {s : List Char} (plain : '{' ∉ s) (column : Nat) {rest : List Char}
    (ends : rest = [] ∨ ∃ more, rest = '{' :: more) :
    scanFrom column (s ++ rest) = textSections s ++ scanFrom (column + byteLength s) rest := by
  by_cases empty : s = []
  · subst empty
    rfl
  · rw [scanFrom_run empty plain column ends, textSections, if_neg empty]
    rfl

theorem scanFrom_opened {opened : Option (List Char)} (unclosed : ∀ rest ∈ opened, '}' ∉ rest)
    (column : Nat) : scanFrom column (openedChars opened) = openedSections column opened := by
  cases opened with
  | none => rw [openedChars, scanFrom_nil, openedSections]
  | some rest => exact scanFrom_open (unclosed rest rfl) column

/-- Scanning sections and the texts behind them, one after the other. -/
theorem scanFrom_turns {turns : List (List Char × List Char)} {opened : Option (List Char)}
    (closed : ∀ turn ∈ turns, '}' ∉ turn.1 ∧ '{' ∉ turn.2)
    (unclosed : ∀ rest ∈ opened, '}' ∉ rest) (column : Nat) :
    scanFrom column (turns.flatMap turnChars ++ openedChars opened) =
      turns.flatMap turnSections ++
        openedSections (column + byteLength (turns.flatMap turnChars)) opened := by
  induction turns generalizing column with
  | nil => exact scanFrom_opened unclosed column
  | cons turn turns ih =>
      rw [List.forall_mem_cons] at closed
      have behind : column + byteLength turn.1 + 2 + byteLength turn.2 +
          byteLength (turns.flatMap turnChars) =
            column + byteLength ((turn :: turns).flatMap turnChars) := by
        rw [byteLength_turns]
        omega
      rw [turnChars_cons, scanFrom_braces closed.1.1,
        scanFrom_text closed.1.2 _ (turns_begin turns opened), ih closed.2, behind]
      simp [turnSections]

end Section

namespace LineParts

variable (parts : LineParts)

/-- Scanning the line that parts make up finds the parts. -/
theorem scan_chars : Section.scan parts.chars = parts.sections := by
  rw [Section.scan_eq, chars, closedChars, List.append_assoc,
    Section.scanFrom_text parts.plain 0 (turns_begin parts.turns parts.opened),
    Section.scanFrom_turns parts.turns_closed parts.opened_unclosed, Nat.zero_add,
    ← byteLength_append, ← utf8ByteSize_ofList, ← List.append_assoc]
  rfl

/-- The text among the pieces of parts is the text outside sections. -/
theorem outside_sections : parts.sections.flatMap Section.outside = parts.outside := by
  have text : ∀ s : List Char, (textSections s).flatMap Section.outside = s := by
    intro s
    by_cases empty : s = [] <;> simp [textSections, empty, Section.outside]
  have turn : ∀ turn, (turnSections turn).flatMap Section.outside = turn.2 := by
    intro turn
    rw [turnSections, List.flatMap_cons, text]
    have none : (Section.ofContents turn.1).outside = [] := by
      simp only [Section.ofContents]
      split <;> rfl
    rw [none, List.nil_append]
  have error : ∀ column, (openedSections column parts.opened).flatMap Section.outside = [] := by
    intro column
    cases parts.opened <;> rfl
  rw [sections, List.flatMap_append, List.flatMap_append, text, error, List.append_nil, outside,
    List.flatMap_assoc]
  simp only [turn]

end LineParts

/-- **Scanning a line finds the one way to take it apart.** Every line is made up of texts without
`{` and sections without `}` that take turns, closed or with a last `{` that is not closed, in one
way only. Scanning gives the texts that are not empty, verbatim and in order, what the section
between them stands for, and at the end, exactly if a `{` is not closed, the byte where it stands.
A scanner at the beginning of the line gives these pieces and then no more, and nothing ever follows
a `{` that is not closed. So the text among the pieces is what stands outside sections. -/
theorem scan_parts (line : List Char) :
    ∃ parts : LineParts, parts.chars = line ∧
      (∀ parts' : LineParts, parts'.chars = line → parts' = parts) ∧
      Section.scan line = parts.sections ∧
      (∃ last, (Scanner.start line).Yields parts.sections last ∧ last.next? = none) ∧
      (∀ (s after : Scanner) (column : Nat), s.next? = some (.unclosed column, after) →
        after.next? = none) ∧
      (Section.scan line).flatMap Section.outside = parts.outside := by
  obtain ⟨parts, rfl⟩ := exists_parts line
  refine ⟨parts, rfl, fun parts' same => LineParts.chars_inj same, parts.scan_chars, ?_,
    fun s after column => Scanner.next?_behind_unclosed, ?_⟩
  · rw [← parts.scan_chars]
    exact (Scanner.start parts.chars).yields_pieces
  · rw [parts.scan_chars, parts.outside_sections]

/-- A character of two bytes, two sections next to each other and a brace that is not closed. -/
example : Section.scan "é\x7b#c\x7d\x7b\x7b\x7d\x7d \x7b$x".toList =
    [.text ['é'], .comment, .brace '{', .text ['}', ' '], .unclosed 11] := by
  cbv

end BraceTemplate
