/-
# BraceTemplate.Json.Token — the tokens of JSON text

A token is a bracket, a comma, a colon or a scalar. Between tokens stand spaces, tabs and line ends.
A string token is what its escapes stand for; a high surrogate escape must be followed by a low one
and no other surrogate escape may occur.
-/
import BraceTemplate.Json.Numeral

namespace BraceTemplate.Json

set_option autoImplicit false

open Text

/-- A token of JSON text. -/
inductive Token where
  | openArray
  | closeArray
  | openObject
  | closeObject
  | comma
  | colon
  | scalar (value : Json)

namespace Token

/-- The value of a hexadecimal digit. -/
def hexDigit? (c : Char) : Option Nat :=
  if c.isDigit then some (c.toNat - '0'.toNat)
  else if 'a' ≤ c ∧ c ≤ 'f' then some (c.toNat - 'a'.toNat + 10)
  else if 'A' ≤ c ∧ c ≤ 'F' then some (c.toNat - 'A'.toNat + 10)
  else none

/-- The number that four hexadecimal digits denote. -/
def hexNumber? (a b c d : Char) : Option Nat :=
  match hexDigit? a, hexDigit? b, hexDigit? c, hexDigit? d with
  | some a, some b, some c, some d => some (((a * 16 + b) * 16 + c) * 16 + d)
  | _, _, _, _ => none

/-- What a one-character escape stands for. -/
def escaped? : Char → Option Char
  | '"' => some '"'
  | '\\' => some '\\'
  | '/' => some '/'
  | 'b' => some '\x08'
  | 'f' => some '\x0c'
  | 'n' => some '\n'
  | 'r' => some '\r'
  | 't' => some '\t'
  | _ => none

/-- Puts a character in front of the text of a string. -/
def withChar (c : Char) : Option (List Char × List Char) → Option (List Char × List Char)
  | some (text, rest) => some (c :: text, rest)
  | none => none

/-- The text of a string after its opening quote, and what follows its closing quote. -/
def string? : List Char → Option (List Char × List Char)
  | [] => none
  | '"' :: rest => some ([], rest)
  | '\\' :: 'u' :: a :: b :: c :: d :: rest =>
      match hexNumber? a b c d with
      | none => none
      | some n =>
          if 0xd800 ≤ n ∧ n < 0xdc00 then
            match rest with
            | '\\' :: 'u' :: e :: f :: g :: h :: rest =>
                match hexNumber? e f g h with
                | none => none
                | some low =>
                    if 0xdc00 ≤ low ∧ low < 0xe000 then
                      let code := 0x10000 + (n - 0xd800) * 0x400 + (low - 0xdc00)
                      withChar (Char.ofNat code) (string? rest)
                    else none
            | _ => none
          else if 0xdc00 ≤ n ∧ n < 0xe000 then none
          else withChar (Char.ofNat n) (string? rest)
  | '\\' :: c :: rest =>
      match escaped? c with
      | some e => withChar e (string? rest)
      | none => none
  | c :: rest => if c == '\\' || c.toNat < 0x20 then none else withChar c (string? rest)

theorem length_withChar {c : Char} {o : Option (List Char × List Char)} {n : Nat}
    (ho : ∀ text rest, o = some (text, rest) → rest.length < n)
    {text rest : List Char} (h : withChar c o = some (text, rest)) : rest.length < n := by
  match o, ho, h with
  | some (t, r), ho, h =>
    simp only [withChar, Option.some.injEq, Prod.mk.injEq] at h
    exact h.2 ▸ ho t r rfl

theorem length_string? {s text rest : List Char} (h : string? s = some (text, rest)) :
    rest.length < s.length := by
  fun_induction string? s generalizing text rest <;> simp_all only [List.length_cons, reduceCtorEq]
  case case2 =>
    simp only [Option.some.injEq, Prod.mk.injEq] at h
    rw [h.2]; omega
  all_goals
    refine length_withChar (fun t r htr => ?_) h
    rename_i ih
    have := ih htr
    omega

/-- A word of letters as a token. -/
def word? (s : List Char) : Option Token :=
  if s = ['n', 'u', 'l', 'l'] then some (.scalar .null)
  else if s = ['t', 'r', 'u', 'e'] then some (.scalar (.bool true))
  else if s = ['f', 'a', 'l', 's', 'e'] then some (.scalar (.bool false))
  else none

/-- A character that may stand in a numeral. -/
def inNumeral (c : Char) : Bool :=
  c.isDigit || c == '-' || c == '+' || c == '.' || c == 'e' || c == 'E'

/-- A numeral as a token. -/
def numeral? (s : List Char) : Option Token :=
  match Numeral.parse? s with
  | none => none
  | some n => n.toNumber?.map fun x => .scalar (.number x)

/-- The token that begins with `c`, and the text after it. -/
def read? (c : Char) (cs : List Char) : Option (Token × List Char) :=
  match c with
  | '[' => some (.openArray, cs)
  | ']' => some (.closeArray, cs)
  | '{' => some (.openObject, cs)
  | '}' => some (.closeObject, cs)
  | ',' => some (.comma, cs)
  | ':' => some (.colon, cs)
  | '"' => (string? cs).map fun (text, rest) => (.scalar (.string (String.ofList text)), rest)
  | c =>
      if c.isAlpha then
        (word? (c :: cs.takeWhile Char.isAlpha)).map (·, cs.dropWhile Char.isAlpha)
      else if inNumeral c then
        (numeral? (c :: cs.takeWhile inNumeral)).map (·, cs.dropWhile inNumeral)
      else none

theorem length_read? {c : Char} {cs rest : List Char} {t : Token}
    (h : read? c cs = some (t, rest)) : rest.length ≤ cs.length := by
  unfold read? at h
  split at h
  case h_7 =>
    obtain ⟨⟨text, r⟩, hr, heq⟩ := Option.map_eq_some_iff.1 h
    obtain ⟨-, rfl⟩ := Prod.mk.inj heq
    exact Nat.le_of_lt (length_string? hr)
  case h_8 =>
    split at h
    · obtain ⟨t', -, heq⟩ := Option.map_eq_some_iff.1 h
      obtain ⟨-, rfl⟩ := Prod.mk.inj heq
      exact length_dropWhile_le _ _
    · split at h
      · obtain ⟨t', -, heq⟩ := Option.map_eq_some_iff.1 h
        obtain ⟨-, rfl⟩ := Prod.mk.inj heq
        exact length_dropWhile_le _ _
      · cases h
  all_goals
    obtain ⟨-, rfl⟩ := Prod.mk.inj (Option.some.inj h)
    exact Nat.le_refl _

/-- A character that may stand between tokens. -/
def isSpace (c : Char) : Bool :=
  c == ' ' || c == '\t' || c == '\n' || c == '\r'

/-- The tokens of a text, if it consists of tokens. -/
def scan? : List Char → Option (List Token)
  | [] => some []
  | c :: cs =>
      if isSpace c then scan? cs
      else match _h : read? c cs with
        | none => none
        | some (t, rest) => (scan? rest).map (t :: ·)
  termination_by s => s.length
  decreasing_by
    · simp
    · have := length_read? _h
      simp only [List.length_cons]
      omega

end Token

end BraceTemplate.Json
