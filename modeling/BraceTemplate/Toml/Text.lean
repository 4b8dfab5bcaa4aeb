/-
# BraceTemplate.Toml.Text — blanks, comments and strings

Strings in double quotes have escapes, those in single quotes have none. Three quotes begin a string
that may have line ends, of which one right after the opening quotes does not count and every other
is one newline; up to two quotes may stand before the closing three. No text may hold control
characters other than tabs.
-/
import BraceTemplate.Toml.Scalar

namespace BraceTemplate.Toml

set_option autoImplicit false

open BraceTemplate.Text

/-- A space or tab. -/
def isSpace (c : Char) : Bool :=
  c == ' ' || c == '\t'

/-- A character that may stand within a line. -/
def inLine (c : Char) : Bool :=
  c == '\t' || (0x20 ≤ c.toNat && c.toNat != 0x7f)

/-- A text without the spaces in front. -/
def skipSpaces (s : List Char) : List Char :=
  s.dropWhile isSpace

/-- A text after the line end in front of it. -/
def newline? : List Char → Option (List Char)
  | '\n' :: rest => some rest
  | '\r' :: '\n' :: rest => some rest
  | _ => none

/-- A text without the comment in front. -/
def skipComment : List Char → List Char
  | '#' :: rest => rest.dropWhile inLine
  | s => s

/-- What follows the line in front of a text, if it has only spaces and a comment. -/
def endLine? (s : List Char) : Option (List Char) :=
  match skipComment (skipSpaces s) with
  | [] => some []
  | s => newline? s

/-- A text without the spaces, comments and line ends in front, of which it may begin inside a
comment; none if a comment is not followed by a line end. -/
def skipLines? (inComment : Bool) : List Char → Option (List Char)
  | [] => if inComment then none else some []
  | '\r' :: '\n' :: rest => skipLines? false rest
  | c :: rest =>
      if c == '\n' then skipLines? false rest
      else if c == '\r' then none
      else if inComment then (if inLine c then skipLines? true rest else none)
      else if isSpace c then skipLines? false rest
      else if c == '#' then skipLines? true rest
      else some (c :: rest)

/-- The character that hexadecimal digits denote. -/
def charOfHex? (digits : List Char) : Option Char :=
  if digits.all fun c => (digitIn? 16 c).isSome then
    let n := digits.foldl (fun n c => n * 16 + (digitIn? 16 c).getD 0) 0
    if h : n.isValidChar then some (Char.ofNatAux n h) else none
  else none

/-- The character of an escape, given after its backslash, and the text after it. -/
def escape? : List Char → Option (Char × List Char)
  | 'b' :: rest => some ('\x08', rest)
  | 't' :: rest => some ('\t', rest)
  | 'n' :: rest => some ('\n', rest)
  | 'f' :: rest => some ('\x0c', rest)
  | 'r' :: rest => some ('\r', rest)
  | '"' :: rest => some ('"', rest)
  | '\\' :: rest => some ('\\', rest)
  | 'u' :: a :: b :: c :: d :: rest => (charOfHex? [a, b, c, d]).map (·, rest)
  | 'U' :: a :: b :: c :: d :: e :: f :: g :: h :: rest =>
      (charOfHex? [a, b, c, d, e, f, g, h]).map (·, rest)
  | _ => none

/-- The text of a string on one line after its opening quote, and what follows its closing quote.
Escapes are read if the quote is a double one. Each unit of fuel stands for a character. -/
def shortString? (quote : Char) : Nat → List Char → Option (List Char × List Char)
  | 0, _ => none
  | _ + 1, [] => none
  | fuel + 1, c :: rest =>
      if c == quote then some ([], rest)
      else if c == '\\' && quote == '"' then
        match escape? rest with
        | some (c, rest) =>
            (shortString? quote fuel rest).map fun (text, rest) => (c :: text, rest)
        | none => none
      else if inLine c then
        (shortString? quote fuel rest).map fun (text, rest) => (c :: text, rest)
      else none

/-- A text without the spaces and line ends in front. -/
def skipBlankLines : List Char → List Char
  | [] => []
  | '\r' :: '\n' :: rest => skipBlankLines rest
  | c :: rest => if isSpace c || c == '\n' then skipBlankLines rest else c :: rest

/-- What follows a backslash that ends its line, without the blank lines and spaces in front. -/
def lineJoin? (s : List Char) : Option (List Char) :=
  (newline? (skipSpaces s)).map skipBlankLines

/-- The text of a string of several lines after its opening quotes, and what follows its closing
quotes. -/
def longString? (quote : Char) : Nat → List Char → Option (List Char × List Char)
  | 0, _ => none
  | _ + 1, [] => none
  | fuel + 1, c :: rest =>
      let more (c : Char) (rest : List Char) :=
        (longString? quote fuel rest).map fun (text, rest) => (c :: text, rest)
      if c == quote then
        let quotes := rest.takeWhile (· == quote)
        if quotes.length < 2 then more c rest
        else if quotes.length < 5 then
          some (List.replicate (quotes.length - 2) quote, rest.dropWhile (· == quote))
        else none
      else if c == '\\' && quote == '"' then
        match lineJoin? rest with
        | some rest => longString? quote fuel rest
        | none =>
            match escape? rest with
            | some (c, rest) => more c rest
            | none => none
      else match newline? (c :: rest) with
        | some rest => more '\n' rest
        | none => if inLine c then more c rest else none

/-- A string in front of a text, and the text after it. -/
def string? : List Char → Option (String × List Char)
  | [] => none
  | quote :: rest =>
      let fuel := rest.length + 1
      let text :=
        match rest with
        | a :: b :: rest =>
            if a == quote && b == quote then
              longString? quote fuel ((newline? rest).getD rest)
            else shortString? quote fuel (a :: b :: rest)
        | rest => shortString? quote fuel rest
      text.map fun (text, rest) => (String.ofList text, rest)

/-- A character of a key without quotes. -/
def inBareKey (c : Char) : Bool :=
  c.isAlphanum || c == '_' || c == '-'

/-- One part of a key in front of a text, and the text after it. -/
def keyPart? : List Char → Option (String × List Char)
  | [] => none
  | c :: rest =>
      if c == '"' || c == '\'' then
        (shortString? c (rest.length + 1) rest).map fun (text, rest) => (String.ofList text, rest)
      else if inBareKey c then
        some (String.ofList (c :: rest.takeWhile inBareKey), rest.dropWhile inBareKey)
      else none

/-- The parts of a key with dots between them, and the text after it and its spaces. -/
def keyParts? : Nat → List Char → Option (List String × List Char)
  | 0, _ => none
  | fuel + 1, s =>
      match keyPart? (skipSpaces s) with
      | none => none
      | some (part, rest) =>
          match skipSpaces rest with
          | '.' :: rest => (keyParts? fuel rest).map fun (parts, rest) => (part :: parts, rest)
          | rest => some ([part], rest)

/-- How deep values and the parts of a key may nest. -/
def nestingLimit : Nat := 80

/-- A key in front of a text, and the text after it and its spaces. -/
def key? (s : List Char) : Option (List String × List Char) :=
  (keyParts? nestingLimit s).filter fun (parts, _) => parts.length < nestingLimit

end BraceTemplate.Toml
