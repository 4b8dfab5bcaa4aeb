/-
# BraceTemplate.Decimal.Style — how floats are written

A style holds the decisions of one output format: which decimal exponents are written
positionally, whether a whole number keeps its point, which way ties between digits go. `Style.text`
lays the shortest digits out accordingly.
-/
import BraceTemplate.Decimal.Shortest

namespace BraceTemplate.Decimal

set_option autoImplicit false

/-- The decisions of a float format. -/
structure Style where
  tie : Tie
  /-- Whether a number with this exponent of its leading digit is written without exponent. -/
  positional : Int → Bool
  /-- Whole numbers written without exponent end in `.0`. -/
  pointZero : Bool

namespace Style

/-- Digits without an exponent, the point standing `exponent` places after the last digit. -/
def layPositional (style : Style) (digits : List Char) (exponent : Int) : List Char :=
  if exponent ≥ 0 then
    digits ++ List.replicate exponent.toNat '0' ++ (if style.pointZero then ['.', '0'] else [])
  else
    let places := (-exponent).toNat
    if places < digits.length then
      digits.take (digits.length - places) ++ '.' :: digits.drop (digits.length - places)
    else '0' :: '.' :: (List.replicate (places - digits.length) '0' ++ digits)

/-- Digits with the point after the first and the exponent of the first, always signed. -/
def layScientific (digits : List Char) (leading : Int) : List Char :=
  let mantissa := match digits with
    | first :: second :: rest => first :: '.' :: second :: rest
    | short => short
  let sign := if leading < 0 then '-' else '+'
  mantissa ++ 'e' :: sign :: Nat.toDigits 10 leading.natAbs

/-- A positive decimal; trailing zeros are no digits of it. -/
def lay (style : Style) (d : Scaled) : List Char :=
  let all := Nat.toDigits 10 d.digits
  let zeros := (all.reverse.takeWhile (· == '0')).length
  let digits := all.take (all.length - zeros)
  let exponent := d.exponent + zeros
  let leading := exponent + digits.length - 1
  if style.positional leading then style.layPositional digits exponent
  else layScientific digits leading

/-- The characters of a finite float. -/
def finiteChars (style : Style) (x : Float) : List Char :=
  let bits := x.toBits
  let magnitude := Binary.ofBits bits
  let unsigned :=
    if magnitude.significand = 0 then
      if style.pointZero then ['0', '.', '0'] else ['0']
    else style.lay (magnitude.shortest style.tie)
  if bits >>> 63 = 1 then '-' :: unsigned else unsigned

/-- The text of a float. -/
def text (style : Style) (x : Float) : String :=
  if x.isNaN then "NaN"
  else if x.isFinite then String.ofList (style.finiteChars x)
  else if x.toBits >>> 63 = 1 then "-inf"
  else "inf"

end Style

end BraceTemplate.Decimal
