/-
# BraceTemplate.Proofs.Values.Json — what is lost between values and JSON

JSON has one word for no value and no word for a float that is not finite; a value has no integer
beyond 64 bits with sign. These are the only differences: a value that goes to JSON and back loses
its floats that are not finite (`Value.finiteOnly`), and JSON that goes the other way has its large
integers as floats (`Json.widened`). Everything else comes back as it was, at every depth. Integers
and floats are told apart in both directions, also floats that are whole.

Both round trips go by the data. They rest on the order of the keys: the entries of a map keep their
keys on the way, so collecting them again changes nothing (`Dict.ofEntries_of_ascending`).

* `ofJson_toJson`, `toJson_ofJson`: the round trips;
* `finiteOnly_of_finite`: a value whose floats are finite loses nothing.
-/
import BraceTemplate.Value.Json
import BraceTemplate.Proofs.Decimal.Integer

namespace BraceTemplate

set_option autoImplicit false

namespace Json

mutual

/-- The keys of every object in a JSON value ascend. -/
def Ordered : Json → Prop
  | .array items => orderedItems items
  | .object members => Dict.Ascending members ∧ orderedMembers members
  | .null | .bool _ | .number _ | .string _ => True

/-- All items are ordered. -/
def orderedItems : List Json → Prop
  | [] => True
  | j :: rest => j.Ordered ∧ orderedItems rest

/-- The values of all members are ordered. -/
def orderedMembers : List (String × Json) → Prop
  | [] => True
  | (_, j) :: rest => j.Ordered ∧ orderedMembers rest

end

/-- A number whose integer has 64 bits with sign: a larger one is the float nearest to it. -/
def Number.widened : Number → Number
  | .integer n inRange =>
      if n ≤ 9223372036854775807 then .integer n inRange
      else .float (UInt64.ofNat n.toNat).toFloat (Decimal.isFinite_toFloat _)
  | .float x finite => .float x finite

mutual

/-- A JSON value whose integers have 64 bits with sign: the larger ones are floats. -/
def widened : Json → Json
  | .number n => .number n.widened
  | .array items => .array (widenedItems items)
  | .object members => .object (widenedMembers members)
  | .null => .null
  | .bool b => .bool b
  | .string s => .string s

/-- Items whose integers have 64 bits with sign. -/
def widenedItems : List Json → List Json
  | [] => []
  | j :: rest => j.widened :: widenedItems rest

/-- Members whose integers have 64 bits with sign. -/
def widenedMembers : List (String × Json) → List (String × Json)
  | [] => []
  | (k, j) :: rest => (k, j.widened) :: widenedMembers rest

end

theorem ofFloat_of_finite {x : Float} (finite : x.isFinite = true) :
    ofFloat x = .number (.float x finite) := by
  rw [ofFloat, Number.ofFloat?, dif_pos finite]

theorem ofFloat_of_not_finite {x : Float} (infinite : x.isFinite = false) : ofFloat x = .null := by
  rw [ofFloat, Number.ofFloat?, dif_neg (by rw [infinite]; exact Bool.false_ne_true)]

end Json

namespace Value

mutual

/-- Every float in a value is finite. -/
def Finite : Value → Prop
  | .float x => x.isFinite = true
  | .list items => finiteItems items
  | .map entries => finiteEntries entries
  | .undefined | .bool _ | .int _ | .string _ => True

/-- Every float in the items is finite. -/
def finiteItems : List Value → Prop
  | [] => True
  | v :: rest => v.Finite ∧ finiteItems rest

/-- Every float in the values of the entries is finite. -/
def finiteEntries : List (String × Value) → Prop
  | [] => True
  | (_, v) :: rest => v.Finite ∧ finiteEntries rest

end

mutual

/-- A value with its finite floats only: the others are no value. -/
def finiteOnly : Value → Value
  | .float x => if x.isFinite then .float x else .undefined
  | .list items => .list (finiteOnlyItems items)
  | .map entries => .map (finiteOnlyEntries entries)
  | .undefined => .undefined
  | .bool b => .bool b
  | .int n => .int n
  | .string s => .string s

/-- Items with their finite floats only. -/
def finiteOnlyItems : List Value → List Value
  | [] => []
  | v :: rest => v.finiteOnly :: finiteOnlyItems rest

/-- Entries with the finite floats of their values only. -/
def finiteOnlyEntries : List (String × Value) → List (String × Value)
  | [] => []
  | (k, v) :: rest => (k, v.finiteOnly) :: finiteOnlyEntries rest

end

mutual

/-- A value whose floats are finite loses nothing. -/
theorem finiteOnly_of_finite : ∀ v : Value, v.Finite → v.finiteOnly = v
  | .float x, finite => by rw [Finite] at finite; rw [finiteOnly, if_pos finite]
  | .list items, finite => by
      rw [Finite] at finite
      rw [finiteOnly, finiteOnlyItems_of_finite items finite]
  | .map entries, finite => by
      rw [Finite] at finite
      rw [finiteOnly, finiteOnlyEntries_of_finite entries finite]
  | .undefined, _ | .bool _, _ | .int _, _ | .string _, _ => by rw [finiteOnly]

theorem finiteOnlyItems_of_finite :
    ∀ items : List Value, finiteItems items → finiteOnlyItems items = items
  | [], _ => rfl
  | v :: rest, finite => by
      rw [finiteItems] at finite
      rw [finiteOnlyItems, finiteOnly_of_finite v finite.1,
        finiteOnlyItems_of_finite rest finite.2]

theorem finiteOnlyEntries_of_finite :
    ∀ entries : List (String × Value), finiteEntries entries → finiteOnlyEntries entries = entries
  | [], _ => rfl
  | (k, v) :: rest, finite => by
      rw [finiteEntries] at finite
      rw [finiteOnlyEntries, finiteOnly_of_finite v finite.1,
        finiteOnlyEntries_of_finite rest finite.2]

end

/-! ## Numbers -/

theorem ofJson_ofInt64 (n : Int64) : ofJson (Json.ofInt64 n) = .int n := by
  have small : n.toInt ≤ 9223372036854775807 := Int.le_of_lt_add_one n.toInt_lt
  rw [Json.ofInt64, ofJson, ofNumber, if_pos small, Int64.ofInt_toInt]

theorem ofJson_ofFloat (x : Float) :
    ofJson (Json.ofFloat x) = if x.isFinite then .float x else .undefined := by
  cases finite : x.isFinite with
  | true => rw [Json.ofFloat_of_finite finite, ofJson, ofNumber, if_pos rfl]
  | false => rw [Json.ofFloat_of_not_finite finite, ofJson, if_neg Bool.false_ne_true]

theorem toJson_ofNumber (n : Json.Number) : (ofNumber n).toJson = .number n.widened := by
  cases n with
  | integer n inRange =>
      rw [ofNumber, Json.Number.widened]
      split
      · rename_i small
        have kept : (Int64.ofInt n).toInt = n :=
          Int64.toInt_ofInt_of_le inRange.1 (Int.lt_add_one_of_le small)
        rw [toJson, Json.ofInt64]
        simp only [kept]
      · rw [toJson, Json.ofFloat_of_finite (Decimal.isFinite_toFloat _)]
  | float x finite => rw [ofNumber, toJson, Json.ofFloat_of_finite finite, Json.Number.widened]

/-! ## Round trips -/

mutual

/-- A value comes back from JSON with its finite floats only. -/
theorem ofJson_toJson : ∀ v : Value, v.Ordered → ofJson v.toJson = v.finiteOnly
  | .undefined, _ | .bool _, _ | .string _, _ => by rw [toJson, ofJson, finiteOnly]
  | .int n, _ => by rw [toJson, ofJson_ofInt64, finiteOnly]
  | .float x, _ => by rw [toJson, ofJson_ofFloat, finiteOnly]
  | .list items, ordered => by
      rw [Ordered] at ordered
      rw [toJson, ofJson, ofItems_toItems items ordered, finiteOnly]
  | .map entries, ordered => by
      rw [Ordered] at ordered
      have members := ordered.1.through toMembers rfl fun _ _ _ => rfl
      have kept := ordered.1.through finiteOnlyEntries rfl fun _ _ _ => rfl
      rw [toJson, Dict.ofEntries_of_ascending members, ofJson,
        ofMembers_toMembers entries ordered.2, Dict.ofEntries_of_ascending kept, finiteOnly]

theorem ofItems_toItems :
    ∀ items : List Value, orderedItems items → ofItems (toItems items) = finiteOnlyItems items
  | [], _ => rfl
  | v :: rest, ordered => by
      rw [orderedItems] at ordered
      rw [toItems, ofItems, ofJson_toJson v ordered.1, ofItems_toItems rest ordered.2,
        finiteOnlyItems]

theorem ofMembers_toMembers :
    ∀ entries : List (String × Value),
      orderedEntries entries → ofMembers (toMembers entries) = finiteOnlyEntries entries
  | [], _ => rfl
  | (k, v) :: rest, ordered => by
      rw [orderedEntries] at ordered
      rw [toMembers, ofMembers, ofJson_toJson v ordered.1, ofMembers_toMembers rest ordered.2,
        finiteOnlyEntries]

end

mutual

/-- JSON comes back from values with its large integers as floats. -/
theorem toJson_ofJson : ∀ j : Json, j.Ordered → (ofJson j).toJson = j.widened
  | .null, _ | .bool _, _ | .string _, _ => by rw [ofJson, toJson, Json.widened]
  | .number n, _ => by rw [ofJson, toJson_ofNumber, Json.widened]
  | .array items, ordered => by
      rw [Json.Ordered] at ordered
      rw [ofJson, toJson, toItems_ofItems items ordered, Json.widened]
  | .object members, ordered => by
      rw [Json.Ordered] at ordered
      have entries := ordered.1.through ofMembers rfl fun _ _ _ => rfl
      have kept := ordered.1.through Json.widenedMembers rfl fun _ _ _ => rfl
      rw [ofJson, Dict.ofEntries_of_ascending entries, toJson,
        toMembers_ofMembers members ordered.2, Dict.ofEntries_of_ascending kept, Json.widened]

theorem toItems_ofItems :
    ∀ items : List Json,
      Json.orderedItems items → toItems (ofItems items) = Json.widenedItems items
  | [], _ => rfl
  | j :: rest, ordered => by
      rw [Json.orderedItems] at ordered
      rw [ofItems, toItems, toJson_ofJson j ordered.1, toItems_ofItems rest ordered.2,
        Json.widenedItems]

theorem toMembers_ofMembers :
    ∀ members : List (String × Json),
      Json.orderedMembers members → toMembers (ofMembers members) = Json.widenedMembers members
  | [], _ => rfl
  | (k, j) :: rest, ordered => by
      rw [Json.orderedMembers] at ordered
      rw [ofMembers, toMembers, toJson_ofJson j ordered.1, toMembers_ofMembers rest ordered.2,
        Json.widenedMembers]

end

end Value

/-- A value comes back from JSON with its finite floats only, so unchanged if its floats are finite;
JSON comes back from values with its large integers as floats. -/
theorem json_conversions :
    (∀ v : Value, v.Ordered →
      Value.ofJson v.toJson = v.finiteOnly ∧ (v.Finite → Value.ofJson v.toJson = v)) ∧
    ∀ j : Json, j.Ordered → (Value.ofJson j).toJson = j.widened := by
  refine ⟨fun v ordered => ⟨Value.ofJson_toJson v ordered, fun finite => ?_⟩, Value.toJson_ofJson⟩
  rw [Value.ofJson_toJson v ordered, Value.finiteOnly_of_finite v finite]

theorem json_conversions_map :
    let v : Value := .map [("a", .list [.float (0.0 / 0.0), .float 2.0, .int 2]), ("b", .undefined)]
    let w : Value := .map [("a", .list [.float 2.0, .int 2])]
    let j : Json :=
      .object [("a", .null), ("b", .number (.integer 18446744073709551615 (by decide)))]
    v.Ordered ∧ w.Ordered ∧ w.Finite ∧ j.Ordered ∧
      Value.ofJson v.toJson =
        .map [("a", .list [.undefined, .float 2.0, .int 2]), ("b", .undefined)] ∧
      Value.ofJson w.toJson = w ∧
      (Value.ofJson j).toJson =
        .object [("a", .null), ("b", .number (.float 18446744073709551616.0 (by decide)))] := by
  intro v w j
  have orderedV : v.Ordered := by
    simp only [v, Value.Ordered, Value.orderedEntries, Value.orderedItems]
    exact ⟨by decide, by decide⟩
  have orderedW : w.Ordered := by
    simp only [w, Value.Ordered, Value.orderedEntries, Value.orderedItems]
    exact ⟨by decide, by decide⟩
  have finiteW : w.Finite := by
    simp only [w, Value.Finite, Value.finiteEntries, Value.finiteItems]
    decide
  have orderedJ : j.Ordered := by
    simp only [j, Json.Ordered, Json.orderedMembers]
    exact ⟨by decide, by decide⟩
  refine ⟨orderedV, orderedW, finiteW, orderedJ, ?_, (json_conversions.1 w orderedW).2 finiteW, ?_⟩
  · rw [(json_conversions.1 v orderedV).1]
    rfl
  · rw [json_conversions.2 j orderedJ]
    rfl

end BraceTemplate
