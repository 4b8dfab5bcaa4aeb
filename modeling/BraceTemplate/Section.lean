/-
# BraceTemplate.Section — text and braces on a line

A line is text with sections in braces. A section begins at a `{` outside sections and ends at the
next `}`; it never reaches beyond its line. The first character inside, blanks aside, says what the
section is: `#` a comment, `$` an expression, `%` a directive, a brace stands for itself, and any
other section stands for nothing.

A `Scanner` finds them one by one: it stands at a byte of the line, and a `{` that the line does not
close is the last that it reports. `Section.scan` lists all that it finds.
-/
import BraceTemplate.Text.Blank
import BraceTemplate.Text.Cut
import BraceTemplate.Text.Line

namespace BraceTemplate

set_option autoImplicit false

/-- A piece of a line. -/
inductive Section where
  /-- Text outside braces. -/
  | text (s : List Char)
  | comment
  /-- An expression to be written out. -/
  | output (expr : List Char)
  /-- A directive, without the percent signs. -/
  | action (s : List Char)
  /-- A brace that stands for itself. -/
  | brace (c : Char)
  /-- Nothing: an empty section, or one that begins with any other character. -/
  | nothing
  /-- A `{` at this byte of the line, counted from zero, that the line does not close. -/
  | unclosed (column : Nat)
  deriving DecidableEq, Repr

namespace Section

open Text

/-- Drops one percent sign at the end. -/
def dropPercent (s : List Char) : List Char :=
  if s.getLast? = some '%' then s.dropLast else s

/-- The section with given contents between its braces. -/
def ofContents (contents : List Char) : Section :=
  match trim contents with
  | '#' :: _ => .comment
  | '$' :: rest => .output rest
  | '%' :: rest => .action (trim (dropPercent rest))
  | '{' :: _ => .brace '{'
  | '}' :: _ => .brace '}'
  | _ => .nothing

theorem ofContents_ne_text (contents s : List Char) : ofContents contents ≠ .text s := by
  unfold ofContents
  split <;> nofun

theorem ofContents_ne_unclosed (contents : List Char) (column : Nat) :
    ofContents contents ≠ .unclosed column := by
  unfold ofContents
  split <;> nofun

end Section

/-- A line that is being scanned. -/
structure Scanner where
  /-- What is left of the line. -/
  rest : List Char
  /-- The byte of the line, counted from zero, where this begins. -/
  pos : Nat
  /-- A `{` has been reported that the line does not close. -/
  failed : Bool
  deriving DecidableEq, Repr

namespace Scanner

open Text

/-- At the beginning of a line. -/
def start (line : List Char) : Scanner := ⟨line, 0, false⟩

/-- The next piece, and the scanner behind it. -/
def next? (s : Scanner) : Option (Section × Scanner) :=
  if s.failed then none
  else
    match s.rest with
    | [] => none
    | c :: cs =>
        if c == '{' then
          match cutAt? (· == '}') cs with
          | none => some (.unclosed s.pos, { s with failed := true })
          | some (contents, after) =>
              some (.ofContents contents, ⟨after, s.pos + byteLength contents + 2, false⟩)
        else
          let run := c :: cs.takeWhile (· != '{')
          some (.text run, ⟨cs.dropWhile (· != '{'), s.pos + byteLength run, false⟩)

/-- What a step can do: report a `{` that is not closed, find a section, or find a text that is not
empty. Only the first leaves a scanner that has failed. -/
theorem next?_cases {s after : Scanner} {piece : Section}
    (found : s.next? = some (piece, after)) :
    s.failed = false ∧
      ((piece = .unclosed s.pos ∧ after = ⟨s.rest, s.pos, true⟩) ∨
        (∃ contents rest, s.rest = '{' :: (contents ++ '}' :: rest) ∧
          piece = .ofContents contents ∧
          after = ⟨rest, s.pos + byteLength contents + 2, false⟩) ∨
        ∃ run rest, run ≠ [] ∧ s.rest = run ++ rest ∧ piece = .text run ∧
          after = ⟨rest, s.pos + byteLength run, false⟩) := by
  obtain ⟨rest, pos, failed⟩ := s
  cases failed with
  | true => cases found
  | false =>
      refine ⟨rfl, ?_⟩
      cases rest with
      | nil => cases found
      | cons c cs =>
          simp only [next?, Bool.false_eq_true, if_false] at found
          split at found
          · rename_i isBrace
            obtain rfl := eq_of_beq isBrace
            split at found
            · cases found
              exact .inl ⟨rfl, rfl⟩
            · rename_i contents rest cut
              obtain ⟨d, isEnd, -, rfl⟩ := eq_of_cutAt?_eq_some cut
              obtain rfl := eq_of_beq isEnd
              cases found
              exact .inr (.inl ⟨contents, rest, rfl, rfl, rfl⟩)
          · cases found
            refine .inr (.inr ⟨_, _, List.cons_ne_nil _ _, ?_, rfl, rfl⟩)
            rw [List.cons_append, List.takeWhile_append_dropWhile]

theorem next?_of_failed {s : Scanner} (failed : s.failed = true) : s.next? = none :=
  if_pos failed

/-- Nothing follows a `{` that is not closed. -/
theorem next?_behind_unclosed {s after : Scanner} {column : Nat}
    (found : s.next? = some (.unclosed column, after)) : after.next? = none := by
  obtain ⟨-, ⟨-, rfl⟩ | ⟨contents, rest, -, same, -⟩ | ⟨run, rest, -, -, same, -⟩⟩ :=
    next?_cases found
  · exact next?_of_failed rfl
  · exact absurd same.symm (Section.ofContents_ne_unclosed _ _)
  · cases same

/-- No text that is found is empty. -/
theorem ne_text_of_next? {s after : Scanner} {piece : Section}
    (found : s.next? = some (piece, after)) : piece ≠ .text [] := by
  obtain ⟨-, ⟨rfl, -⟩ | ⟨contents, rest, -, rfl, -⟩ | ⟨run, rest, nonempty, -, rfl, -⟩⟩ :=
    next?_cases found
  · nofun
  · exact Section.ofContents_ne_text _ _
  · exact fun same => nonempty (Section.text.inj same)

/-- What can still be scanned; a scanner that has failed is done. -/
def left (s : Scanner) : Nat :=
  if s.failed then 0 else s.rest.length + 1

theorem left_lt_of_next? {s after : Scanner} {piece : Section}
    (found : s.next? = some (piece, after)) : after.left < s.left := by
  obtain ⟨going, step⟩ := next?_cases found
  have room : s.left = s.rest.length + 1 := if_neg (Bool.eq_false_iff.1 going)
  obtain ⟨-, rfl⟩ | ⟨contents, rest, shape, -, rfl⟩ | ⟨run, rest, nonempty, shape, -, rfl⟩ := step
  · rw [room]
    exact Nat.succ_pos _
  · rw [room, shape]
    simp [left]
    omega
  · have := List.length_pos_iff.2 nonempty
    rw [room, shape]
    simp [left]
    omega

/-- The pieces that are still to come. -/
def pieces (s : Scanner) : List Section :=
  match _found : s.next? with
  | none => []
  | some (piece, after) => piece :: after.pieces
  termination_by s.left
  decreasing_by exact left_lt_of_next? _found

theorem pieces_of_next?_eq_none {s : Scanner} (found : s.next? = none) : s.pieces = [] := by
  rw [pieces]
  split
  · rfl
  · rename_i more
    cases found.symm.trans more

theorem pieces_of_next? {s after : Scanner} {piece : Section}
    (found : s.next? = some (piece, after)) : s.pieces = piece :: after.pieces := by
  rw [pieces]
  split
  · rename_i none
    cases found.symm.trans none
  · rename_i more
    cases found.symm.trans more
    rfl

theorem forall_pieces {P : Section → Prop} (step : ∀ {s after : Scanner} {piece : Section},
    s.next? = some (piece, after) → P piece) (s : Scanner) : ∀ piece ∈ s.pieces, P piece := by
  cases found : s.next? with
  | none =>
      rw [pieces_of_next?_eq_none found]
      exact nofun
  | some next =>
      obtain ⟨piece, after⟩ := next
      have shorter := left_lt_of_next? found
      rw [pieces_of_next? found, List.forall_mem_cons]
      exact ⟨step found, forall_pieces step after⟩
  termination_by s.left

end Scanner

namespace Section

open Text

/-- The pieces of a line that begins at a given byte. -/
def scanFrom (column : Nat) (s : List Char) : List Section :=
  Scanner.pieces ⟨s, column, false⟩

/-- The pieces of a line. -/
def scan (line : List Char) : List Section :=
  (Scanner.start line).pieces

theorem scan_eq (line : List Char) : scan line = scanFrom 0 line := rfl

/-- The pieces of lines, each with the number of its line, the first of which is given. -/
def ofLines (number : Nat) : List (List Char) → List (Nat × Section)
  | [] => []
  | line :: rest => (scan line).map (number, ·) ++ ofLines (number + 1) rest

/-- The pieces of a source text, each with the number of its line. -/
def ofSource (source : List Char) : List (Nat × Section) :=
  ofLines 1 (lines source)

theorem forall_ofLines {P : Section → Prop} (step : ∀ {s after : Scanner} {piece : Section},
    s.next? = some (piece, after) → P piece) (number : Nat) (texts : List (List Char)) :
    ∀ piece ∈ ofLines number texts, P piece.2 := by
  induction texts generalizing number with
  | nil => exact nofun
  | cons line rest ih =>
      rw [ofLines, List.forall_mem_append, List.forall_mem_map]
      exact ⟨Scanner.forall_pieces step _, ih (number + 1)⟩

/-- No text among the pieces of a source is empty. -/
theorem ne_text_of_mem_ofSource (source : List Char) :
    ∀ piece ∈ ofSource source, piece.2 ≠ .text [] :=
  forall_ofLines Scanner.ne_text_of_next? 1 _

end Section

end BraceTemplate
