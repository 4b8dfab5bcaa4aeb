/-
# BraceTemplate.Decimal.Reading — floats from decimal digits

`nearest` is the float nearest to a decimal, a half going to the even neighbour. Decimals beyond
every finite float, on either side, are settled before their power of ten is computed.
-/
import BraceTemplate.Text.Name

namespace BraceTemplate.Decimal

set_option autoImplicit false

/-- Positive infinity. -/
def infinity : Float := 1.0 / 0.0

/-- The float nearest to `significand · 10^exponent`. -/
def nearest (significand : Nat) (exponent : Int) : Float :=
  let leading := exponent + (Nat.toDigits 10 significand).length
  if significand = 0 || leading < -400 then 0.0
  else if leading > 400 then infinity
  else Float.ofScientific significand (exponent < 0) exponent.natAbs

/-- The float nearest to a decimal whose digits are given: those before the point, those after it,
and a power of ten. -/
def nearestOfDigits (whole fraction : List Char) (exponent : Int) : Float :=
  nearest (Text.valueOf (whole ++ fraction)) (exponent - fraction.length)

end BraceTemplate.Decimal
