/-
# BraceTemplate.Json — JSON values

A number is an integer that fits in 64 bits, with a sign or without one, or a finite float. The
members of an object are a dictionary: its keys ascend.
-/
import BraceTemplate.Dict

namespace BraceTemplate

set_option autoImplicit false

namespace Json

/-- The least integer that a number can be. -/
def leastInteger : Int := -9223372036854775808

/-- The least integer above those that a number can be. -/
def integerBound : Int := 18446744073709551616

/-- A number: a 64-bit integer or a finite float. -/
inductive Number where
  | integer (n : Int) (inRange : leastInteger ≤ n ∧ n < integerBound)
  | float (x : Float) (finite : x.isFinite = true)

end Json

/-- A JSON value. -/
inductive Json where
  | null
  | bool (b : Bool)
  | number (n : Json.Number)
  | string (s : String)
  | array (items : List Json)
  | object (members : List (String × Json))

namespace Json

instance : Inhabited Json := ⟨.null⟩

/-- The integer `n`, if a number can be one. -/
def Number.ofInt? (n : Int) : Option Number :=
  if h : leastInteger ≤ n ∧ n < integerBound then some (.integer n h) else none

/-- The float `x`, if it is finite. -/
def Number.ofFloat? (x : Float) : Option Number :=
  if h : x.isFinite = true then some (.float x h) else none

/-- A float as a value; only the finite ones are numbers, the others are null. -/
def ofFloat (x : Float) : Json :=
  match Number.ofFloat? x with
  | some n => .number n
  | none => .null

/-- A 64-bit integer as a value. -/
def ofInt64 (n : Int64) : Json :=
  .number (.integer n.toInt (by
    have := n.le_toInt
    have := n.toInt_lt
    simp only [leastInteger, integerBound]
    omega))

end Json

end BraceTemplate
