/-
# BraceTemplate.Decimal.Shortest — the fewest digits that identify a float

A finite float is `m · 2^q`. The reals that round to it form an interval whose ends lie halfway to
its neighbours and belong to it exactly when `m` is even. `shortest` finds the coarsest decimal
grid with a point in that interval and takes the point nearest to the float; of two equally near
ones the tie rule decides. All comparisons are exact, on natural numbers.
-/

namespace BraceTemplate.Decimal

set_option autoImplicit false

/-- The natural number `digits` times ten to the power `exponent`. -/
structure Scaled where
  digits : Nat
  exponent : Int
  deriving DecidableEq, Repr

/-- Which of two equally near decimals is taken. -/
inductive Tie where
  | toEven
  | upward
  deriving DecidableEq, Repr

/-- A positive finite float, `significand · 2^exponent`. -/
structure Binary where
  significand : Nat
  exponent : Int
  /-- The float below is half as far away as the float above. -/
  narrowBelow : Bool
  deriving DecidableEq, Repr

/-- The value of a finite float's bits, without the sign. -/
def Binary.ofBits (bits : UInt64) : Binary :=
  let biased := ((bits >>> 52) &&& 0x7ff).toNat
  let fraction := (bits &&& 0xfffffffffffff).toNat
  if biased = 0 then ⟨fraction, -1074, false⟩
  else ⟨4503599627370496 + fraction, (biased : Int) - 1075, fraction = 0 && biased > 1⟩

namespace Binary

/-- Quarter units of the last place: the float itself and the ends of its interval. -/
structure Interval where
  low : Nat
  value : Nat
  high : Nat
  /-- The ends belong to the interval. -/
  closed : Bool

/-- The interval of reals that round to the float, in quarter units. -/
def interval (x : Binary) : Interval :=
  { low := if x.narrowBelow then 4 * x.significand - 1 else 4 * x.significand - 2
    value := 4 * x.significand
    high := 4 * x.significand + 2
    closed := x.significand % 2 = 0 }

/-- Whether `point`, given in the unit in which one quarter unit is `scale`, is in the interval. -/
def Interval.holds (i : Interval) (scale point : Nat) : Bool :=
  if i.closed then i.low * scale ≤ point && point ≤ i.high * scale
  else i.low * scale < point && point < i.high * scale

/-- The point of the grid of multiples of `10^k` that is in the interval and nearest to the
float. -/
def onGrid? (x : Binary) (tie : Tie) (k : Int) : Option Scaled :=
  let i := x.interval
  let q := x.exponent - 2
  let scale := Nat.pow 2 q.toNat * Nat.pow 10 (-k).toNat
  let unit := Nat.pow 2 (-q).toNat * Nat.pow 10 k.toNat
  let below := i.value * scale / unit
  let above := below + 1
  let distanceBelow := i.value * scale - below * unit
  let distanceAbove := above * unit - i.value * scale
  let upper := distanceAbove < distanceBelow ||
    (distanceAbove = distanceBelow && (tie = .upward || below % 2 = 1))
  match i.holds scale (below * unit), i.holds scale (above * unit) with
  | true, true => some ⟨if upper then above else below, k⟩
  | true, false => some ⟨below, k⟩
  | false, true => some ⟨above, k⟩
  | false, false => none

/-- A power of ten above the float, at most two powers above its leading digit. -/
def coarsest (x : Binary) : Int :=
  ((Nat.log2 x.significand : Int) + x.exponent) * 1233 / 4096 + 2

/-- The first hit on the grids from `10^k` downward; `none` only if `steps` grids have none. -/
def search (x : Binary) (tie : Tie) : Nat → Int → Option Scaled
  | 0, _ => none
  | steps + 1, k => (x.onGrid? tie k).orElse fun _ => x.search tie steps (k - 1)

/-- The float exactly: its own digits when nothing shorter was found. -/
def exactly (x : Binary) : Scaled :=
  if x.exponent ≥ 0 then ⟨x.significand * Nat.pow 2 x.exponent.toNat, 0⟩
  else ⟨x.significand * Nat.pow 5 (-x.exponent).toNat, x.exponent⟩

/-- The decimal with the fewest digits among those that round to the float, and of these the
nearest one. -/
def shortest (x : Binary) (tie : Tie) : Scaled :=
  (x.search tie 24 x.coarsest).getD x.exactly

end Binary

end BraceTemplate.Decimal
