/-
# BraceTemplate.Json.Numeral — reading numbers

A numeral without fraction and exponent is an integer if it fits in 64 bits; `-0` and all others
are floats. A float is read in 64-bit steps: digits are taken into the significand while it stays
below 2⁶⁴, later digits before the point raise the exponent, later digits after it are dropped, and
the significand is then scaled by a power of ten in float arithmetic. A float beyond the finite
ones is no number.
-/
import BraceTemplate.Json
import BraceTemplate.Text.Name
import BraceTemplate.Text.Cut

namespace BraceTemplate.Json

set_option autoImplicit false

open Text

/-- The parts of a numeral. -/
structure Numeral where
  negative : Bool
  whole : List Char
  /-- The digits after the point, if there is a point. -/
  fraction : Option (List Char)
  /-- Whether the exponent is negative and its digits, if there is an exponent. -/
  exponent : Option (Bool × List Char)

namespace Numeral

/-- A nonempty run of digits. -/
def isDigitRun (s : List Char) : Bool :=
  !s.isEmpty && isDigits s

/-- The digits of a whole part, which begins with zero only if it is zero. -/
def whole? (s : List Char) : Option (List Char) :=
  if isDigitRun s && (s.length = 1 || s.head? ≠ some '0') then some s else none

/-- The sign and digits of an exponent. -/
def exponent? : List Char → Option (Bool × List Char)
  | '-' :: digits => if isDigitRun digits then some (true, digits) else none
  | '+' :: digits => if isDigitRun digits then some (false, digits) else none
  | digits => if isDigitRun digits then some (false, digits) else none

/-- A whole part and the digits after the point, if there is a point. -/
def mantissa? (s : List Char) : Option (List Char × Option (List Char)) :=
  match cutAt? (· == '.') s with
  | none => (whole? s).map (·, none)
  | some (whole, fraction) =>
      if isDigitRun fraction then (whole? whole).map (·, some fraction) else none

/-- A numeral without its sign. -/
def unsigned? (negative : Bool) (s : List Char) : Option Numeral :=
  match cutAt? (fun c => c == 'e' || c == 'E') s with
  | none => (mantissa? s).map fun (whole, fraction) => ⟨negative, whole, fraction, none⟩
  | some (mantissa, exponent) =>
      match mantissa? mantissa, exponent? exponent with
      | some (whole, fraction), some e => some ⟨negative, whole, fraction, some e⟩
      | _, _ => none

/-- The parts of a text that is a numeral. -/
def parse? : List Char → Option Numeral
  | '-' :: s => unsigned? true s
  | s => unsigned? false s

/-! ## Value -/

/-- Digits taken into a significand while it stays below 2⁶⁴, and how many were left. -/
def gather (significand : Nat) : List Char → Nat × Nat
  | [] => (significand, 0)
  | c :: cs =>
      let next := significand * 10 + digitValue c
      if next < 18446744073709551616 then gather next cs else (significand, cs.length + 1)

/-- The power of ten to a positive exponent. -/
def powerOfTen (exponent : Nat) : Float :=
  Float.ofScientific 1 false exponent

/-- `x · 10^exponent` in float arithmetic, one factor of at most `10^308` at a time; each unit of
`steps` stands for one factor. -/
def scale : Nat → Float → Int → Float
  | 0, x, _ => x
  | steps + 1, x, exponent =>
      if exponent ≥ 0 then
        if exponent ≤ 308 then x * powerOfTen exponent.toNat
        else if x == 0.0 then x
        else 1.0 / 0.0
      else if exponent ≥ -308 then x / powerOfTen (-exponent).toNat
      else if x == 0.0 then x
      else scale steps (x / powerOfTen 308) (exponent + 308)

/-- An exponent kept within the 32-bit range. -/
def clampExponent (e : Int) : Int :=
  if e < -2147483648 then -2147483648 else if e ≤ 2147483647 then e else 2147483647

/-- The magnitude of the float that a numeral denotes; beyond the finite floats it is infinite. -/
def magnitude (n : Numeral) : Float :=
  let (wholePart, wholeLeft) := gather 0 n.whole
  let fraction := n.fraction.getD []
  let (significand, fractionLeft) := gather wholePart fraction
  let start : Int := (wholeLeft : Int) - ((fraction.length : Int) - fractionLeft)
  match n.exponent with
  | none => scale 4 (UInt64.ofNat significand).toFloat start
  | some (negative, digits) =>
      let e := valueOf digits
      if e ≤ 2147483647 then
        let exponent := clampExponent (if negative then start - e else start + e)
        scale 4 (UInt64.ofNat significand).toFloat exponent
      else if significand = 0 || negative then 0.0
      else 1.0 / 0.0

/-- The number that a numeral denotes, if it is an integer in range or a finite float. -/
def toNumber? (n : Numeral) : Option Number :=
  let float := Number.ofFloat? (if n.negative then -n.magnitude else n.magnitude)
  match n.fraction, n.exponent with
  | none, none =>
      let value := valueOf n.whole
      if n.negative then
        if value = 0 then float else (Number.ofInt? (-value)).orElse fun _ => float
      else (Number.ofInt? value).orElse fun _ => float
  | _, _ => float

end Numeral

end BraceTemplate.Json
