/-
# BraceTemplate.Toml.Parser — reading TOML

A document is a row of statements: a key and its value, a header in brackets, or a header in double
brackets, each on a line of its own. Values nest to less than `nestingLimit`. `document?` gives its
entries as they stand, and `parse?` with tagged tables as dates.

Every unit of fuel stands for a step that takes at least one character, so the length of the text is
always enough.
-/
import BraceTemplate.Toml.Document
import BraceTemplate.Toml.Tagged
import BraceTemplate.Toml.Text

namespace BraceTemplate.Toml

set_option autoImplicit false

/-- A number, truth value, date or time in front of a text, and the text after it. A space may stand
between a date and a time. -/
def scalar? (s : List Char) : Option (Toml × List Char) :=
  let run := s.takeWhile inScalar
  let after := s.dropWhile inScalar
  match date? run, after with
  | some (_, []), ' ' :: digit :: rest =>
      if digit.isDigit then
        let time := (digit :: rest).takeWhile inScalar
        (dateTime? (run ++ ' ' :: time)).map (·, (digit :: rest).dropWhile inScalar)
      else (dateTime? run).map (·, after)
  | _, _ => ((dateTime? run).or (number? run)).map (·, after)

mutual

/-- A value in front of a text, and the text after it. -/
def value? (depth : Nat) : Nat → List Char → Option (Toml × List Char)
  | 0, _ => none
  | _ + 1, [] => none
  | fuel + 1, c :: rest =>
      if c == '"' || c == '\'' then
        (string? (c :: rest)).map fun (s, rest) => (.string s, rest)
      else if c == '[' then
        if depth + 1 < nestingLimit then
          (items? (depth + 1) fuel rest).map fun (items, rest) => (.array items, rest)
        else none
      else if c == '{' then
        if depth + 1 < nestingLimit then
          match skipSpaces rest with
          | '}' :: rest => some (.table [], rest)
          | rest =>
              match pairs? (depth + 1) fuel rest with
              | some (pairs, rest) => (inlineTable? pairs).map (·, rest)
              | none => none
        else none
      else scalar? (c :: rest)

/-- The items of an array after its opening bracket or a comma, and the text after the closing
bracket. -/
def items? (depth : Nat) : Nat → List Char → Option (List Toml × List Char)
  | 0, _ => none
  | fuel + 1, s =>
      match skipLines? false s with
      | none => none
      | some (']' :: rest) => some ([], rest)
      | some s =>
          match value? depth fuel s with
          | none => none
          | some (v, rest) =>
              match skipLines? false rest with
              | some (']' :: rest) => some ([v], rest)
              | some (',' :: rest) =>
                  (items? depth fuel rest).map fun (items, rest) => (v :: items, rest)
              | _ => none

/-- The keys and values of a braced table after its opening brace or a comma, and the text after the
closing brace. -/
def pairs? (depth : Nat) : Nat → List Char → Option (List (List String × Toml) × List Char)
  | 0, _ => none
  | fuel + 1, s =>
      match key? s with
      | some (key, '=' :: rest) =>
          match value? depth fuel (skipSpaces rest) with
          | none => none
          | some (v, rest) =>
              match skipSpaces rest with
              | '}' :: rest => some ([(key, v)], rest)
              | ',' :: rest =>
                  (pairs? depth fuel rest).map fun (pairs, rest) => ((key, v) :: pairs, rest)
              | _ => none
      | _ => none

end

/-- A header after its opening brackets, which as many closing brackets end, and the text after its
line. -/
def header? (brackets : List Char) (s : List Char) : Option (List String × List Char) :=
  match key? s with
  | some (key, rest) =>
      if brackets.isPrefixOf rest then (endLine? (rest.drop brackets.length)).map (key, ·)
      else none
  | none => none

/-- A key and its value, and the text after their line. -/
def assignment? (s : List Char) : Option (List String × Toml × List Char) :=
  match key? s with
  | some (key, '=' :: rest) =>
      match value? 0 (rest.length + 1) (skipSpaces rest) with
      | some (v, rest) => (endLine? rest).map (key, v, ·)
      | none => none
  | _ => none

/-- A document with the statements of a text added. -/
def statements? : Nat → Document → List Char → Option Document
  | 0, _, _ => none
  | fuel + 1, d, s =>
      match skipSpaces s with
      | [] => some d
      | '#' :: rest =>
          match endLine? ('#' :: rest) with
          | some rest => statements? fuel d rest
          | none => none
      | '[' :: '[' :: rest =>
          match header? [']', ']'] rest with
          | some (key, rest) => (d.append? key).bind fun d => statements? fuel d rest
          | none => none
      | '[' :: rest =>
          match header? [']'] rest with
          | some (key, rest) => (d.open? key).bind fun d => statements? fuel d rest
          | none => none
      | c :: rest =>
          if c == '\n' || c == '\r' then
            match newline? (c :: rest) with
            | some rest => statements? fuel d rest
            | none => none
          else match assignment? (c :: rest) with
            | some (key, v, rest) => (d.set? key v).bind fun d => statements? fuel d rest
            | none => none

/-- A text without the byte order mark in front. -/
def skipMark : List Char → List Char
  | '\ufeff' :: rest => rest
  | s => s

/-- The entries of the document that a text is. -/
def document? (text : String) : Option (List (String × Toml)) :=
  let s := skipMark text.toList
  (statements? (s.length + 1) .empty s).map fun d => entriesToToml d.root

/-- The entries of the document that a text is, with tagged tables as dates and times. -/
def parse? (text : String) : Option (List (String × Toml)) :=
  (document? text).bind untagEntries?

end BraceTemplate.Toml
