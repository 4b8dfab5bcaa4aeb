/-
# BraceTemplate.Text.Case — upper and lower case

Case follows the full mappings of Unicode, so one character may become several. A capital sigma
becomes a final sigma at the end of a word: after a cased character and before none, case-ignorable
characters aside.
-/
import BraceTemplate.Text.CaseTable

namespace BraceTemplate.Text

set_option autoImplicit false

/-- The code point that a run maps `n` to, if `n` is in the run. -/
def CaseRun.map? (run : CaseRun) (n : Nat) : Option Nat :=
  if run.first ≤ n ∧ n ≤ run.last ∧ (n - run.first) % run.stride = 0 then
    some ((n : Int) + run.shift).toNat
  else none

/-- A character by a table of runs and one of longer mappings; others stay as they are. -/
def mapChar (runs : Array CaseRun) (specials : Array (Nat × List Nat)) (c : Char) : List Char :=
  match runs.findSome? fun run => run.map? c.toNat with
  | some n => [Char.ofNat n]
  | none =>
      match specials.find? fun entry => entry.1 = c.toNat with
      | some (_, image) => image.map Char.ofNat
      | none => [c]

/-- The upper case of a character. -/
def upperChar (c : Char) : List Char :=
  if c.toNat < 0x80 then [c.toUpper] else mapChar upperRuns upperSpecials c

/-- The lower case of a character by itself. -/
def lowerChar (c : Char) : List Char :=
  if c.toNat < 0x80 then [c.toLower] else mapChar lowerRuns lowerSpecials c

/-- Whether a character lies in one of the given ranges. -/
def inRanges (ranges : Array (Nat × Nat)) (c : Char) : Bool :=
  ranges.any fun (first, last) => first ≤ c.toNat && c.toNat ≤ last

/-- Whether the first character that is not case-ignorable is cased. -/
def cased (s : List Char) : Bool :=
  match s.dropWhile (inRanges ignorableRanges) with
  | [] => false
  | c :: _ => inRanges casedRanges c

/-- The lower case of `s`, which stands after `before`, given with the nearest character first. -/
def lowerAfter (before : List Char) : List Char → List Char
  | [] => []
  | c :: rest =>
      let image :=
        if c == 'Σ' then (if cased before && !cased rest then ['ς'] else ['σ']) else lowerChar c
      image ++ lowerAfter (c :: before) rest

/-- A text in upper case. -/
def upper (s : String) : String :=
  String.ofList (s.toList.flatMap upperChar)

/-- A text in lower case. -/
def lower (s : String) : String :=
  String.ofList (lowerAfter [] s.toList)

/-- A text with its first character in upper case. -/
def capitalize (s : String) : String :=
  match s.toList with
  | [] => ""
  | c :: rest => String.ofList (upperChar c ++ rest)

end BraceTemplate.Text
