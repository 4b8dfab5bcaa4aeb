/-
# BraceTemplate.Value.Json — values from JSON and to JSON

`null` is no value and back. An integer beyond 64 bits with sign becomes a float; a float that is
not finite becomes `null`. `ordered_ofJson` says that the maps of the result are in order.
-/
import BraceTemplate.Json
import BraceTemplate.Value

namespace BraceTemplate

set_option autoImplicit false

namespace Value

/-- A JSON number as a value. -/
def ofNumber : Json.Number → Value
  | .integer n _ =>
      if n ≤ 9223372036854775807 then .int (Int64.ofInt n)
      else .float (UInt64.ofNat n.toNat).toFloat
  | .float x _ => .float x

mutual

/-- A JSON value as a value. -/
def ofJson : Json → Value
  | .null => .undefined
  | .bool b => .bool b
  | .number n => ofNumber n
  | .string s => .string s
  | .array items => .list (ofItems items)
  | .object members => .map (Dict.ofEntries (ofMembers members))

/-- The items of a JSON array as values. -/
def ofItems : List Json → List Value
  | [] => []
  | j :: rest => ofJson j :: ofItems rest

/-- The members of a JSON object with values. -/
def ofMembers : List (String × Json) → List (String × Value)
  | [] => []
  | (k, j) :: rest => (k, ofJson j) :: ofMembers rest

end

mutual

/-- A value as JSON. -/
def toJson : Value → Json
  | .undefined => .null
  | .bool b => .bool b
  | .int n => Json.ofInt64 n
  | .float x => Json.ofFloat x
  | .string s => .string s
  | .list items => .array (toItems items)
  | .map entries => .object (Dict.ofEntries (toMembers entries))

/-- The items of a list as JSON. -/
def toItems : List Value → List Json
  | [] => []
  | v :: rest => v.toJson :: toItems rest

/-- The entries of a map with JSON values. -/
def toMembers : List (String × Value) → List (String × Json)
  | [] => []
  | (k, v) :: rest => (k, v.toJson) :: toMembers rest

end

theorem ordered_ofNumber (n : Json.Number) : (ofNumber n).Ordered := by
  cases n with
  | integer n h => simp only [ofNumber]; split <;> simp [Ordered]
  | float x h => simp [ofNumber, Ordered]

mutual

theorem ordered_ofJson : ∀ j : Json, (ofJson j).Ordered
  | .null | .bool _ | .string _ => by simp [ofJson, Ordered]
  | .number n => by simpa only [ofJson] using ordered_ofNumber n
  | .array items => by simpa only [ofJson, Ordered] using orderedItems_ofItems items
  | .object members => by
      simpa only [ofJson] using ordered_map_ofEntries (orderedEntries_ofMembers members)

theorem orderedItems_ofItems : ∀ items : List Json, orderedItems (ofItems items)
  | [] => by simp [ofItems, orderedItems]
  | j :: rest => by
      simpa only [ofItems, orderedItems] using ⟨ordered_ofJson j, orderedItems_ofItems rest⟩

theorem orderedEntries_ofMembers :
    ∀ members : List (String × Json), orderedEntries (ofMembers members)
  | [] => by simp [ofMembers, orderedEntries]
  | (_, j) :: rest => by
      simpa only [ofMembers, orderedEntries] using
        ⟨ordered_ofJson j, orderedEntries_ofMembers rest⟩

end

end Value

end BraceTemplate
