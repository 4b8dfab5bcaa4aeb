/-
# BraceTemplate.Toml.Scalar — numbers and truth values

A scalar that is no string is a run of letters, digits and the characters `+ - _ . :`. Underscores
may stand between digits. A decimal number has no leading zero. An integer must fit in 64 bits with
sign, and a float must not round to positive infinity.
-/
import BraceTemplate.Decimal.Reading
import BraceTemplate.Text.Cut
import BraceTemplate.Toml

namespace BraceTemplate.Toml

set_option autoImplicit false

open Text

/-- A character that may stand in a scalar. -/
def inScalar (c : Char) : Bool :=
  c.isAlphanum || c == '+' || c == '-' || c == '_' || c == '.' || c == ':'

/-- The digits of a run in which single underscores may stand between digits. -/
def digits? (isDigit : Char → Bool) : List Char → Option (List Char)
  | [] => none
  | [c] => if isDigit c then some [c] else none
  | c :: '_' :: d :: rest =>
      if isDigit c then (digits? isDigit (d :: rest)).map (c :: ·) else none
  | c :: d :: rest =>
      if isDigit c then (digits? isDigit (d :: rest)).map (c :: ·) else none

/-- The digits of a decimal number without sign. -/
def decimal? (s : List Char) : Option (List Char) :=
  match digits? Char.isDigit s with
  | some digits => if digits.length = 1 ∨ digits.head? ≠ some '0' then some digits else none
  | none => none

/-- A number without its sign, and whether it is negative. -/
def unsign : List Char → Bool × List Char
  | '-' :: s => (true, s)
  | '+' :: s => (false, s)
  | s => (false, s)

/-- An integer that fits in 64 bits. -/
def int64? (n : Int) : Option Toml :=
  if -9223372036854775808 ≤ n ∧ n ≤ 9223372036854775807 then some (.integer (Int64.ofInt n)) else none

/-- The value of a digit in a base up to sixteen. -/
def digitIn? (base : Nat) (c : Char) : Option Nat :=
  let n :=
    if c.isDigit then some (c.toNat - '0'.toNat)
    else if 'a' ≤ c ∧ c ≤ 'f' then some (c.toNat - 'a'.toNat + 10)
    else if 'A' ≤ c ∧ c ≤ 'F' then some (c.toNat - 'A'.toNat + 10)
    else none
  n.filter (· < base)

/-- An integer in a base, given by its digits. -/
def based? (base : Nat) (s : List Char) : Option Toml :=
  match digits? (fun c => (digitIn? base c).isSome) s with
  | some digits =>
      int64? (digits.foldl (fun n c => n * base + (digitIn? base c).getD 0) 0 : Nat)
  | none => none

/-- An integer. -/
def integer? : List Char → Option Toml
  | '0' :: 'x' :: s => based? 16 s
  | '0' :: 'o' :: s => based? 8 s
  | '0' :: 'b' :: s => based? 2 s
  | s =>
      let (negative, s) := unsign s
      match decimal? s with
      | some digits => int64? (if negative then -(valueOf digits : Int) else valueOf digits)
      | none => none

/-- A decimal exponent. -/
def exponent? (s : List Char) : Option Int :=
  let (negative, s) := unsign s
  match digits? Char.isDigit s with
  | some digits => some (if negative then -(valueOf digits : Int) else valueOf digits)
  | none => none

/-- The digits before the point and those after it, if there is a point. -/
def mantissa? (s : List Char) : Option (List Char × List Char × Bool) :=
  match cutAt? (· == '.') s with
  | none => (decimal? s).map (·, [], false)
  | some (whole, fraction) =>
      match decimal? whole, digits? Char.isDigit fraction with
      | some whole, some fraction => some (whole, fraction, true)
      | _, _ => none

/-- A float with a sign, unless it is positive infinity. -/
def signedFloat? (negative : Bool) (x : Float) : Option Toml :=
  if negative then some (.float (-x)) else if x.isInf then none else some (.float x)

/-- A float that is written with a point or an exponent. -/
def decimalFloat? (s : List Char) : Option Toml :=
  let (negative, s) := unsign s
  match cutAt? (fun c => c == 'e' || c == 'E') s with
  | none =>
      match mantissa? s with
      | some (whole, fraction, true) =>
          signedFloat? negative (Decimal.nearestOfDigits whole fraction 0)
      | _ => none
  | some (mantissa, exponent) =>
      match mantissa? mantissa, exponent? exponent with
      | some (whole, fraction, _), some e =>
          signedFloat? negative (Decimal.nearestOfDigits whole fraction e)
      | _, _ => none

/-- An infinity or no number. -/
def specialFloat? (s : List Char) : Option Toml :=
  let (negative, s) := unsign s
  let sign (x : Float) := if negative then -x else x
  if s = ['i', 'n', 'f'] then some (.float (sign Decimal.infinity))
  else if s = ['n', 'a', 'n'] then some (.float (sign (0.0 / 0.0)))
  else none

/-- A truth value. -/
def boolean? (s : List Char) : Option Toml :=
  if s = ['t', 'r', 'u', 'e'] then some (.boolean true)
  else if s = ['f', 'a', 'l', 's', 'e'] then some (.boolean false)
  else none

/-- A number or truth value. -/
def number? (s : List Char) : Option Toml :=
  (integer? s).or ((decimalFloat? s).or ((specialFloat? s).or (boolean? s)))

end BraceTemplate.Toml
