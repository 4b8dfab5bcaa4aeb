/-
# BraceTemplate.Value — the values that templates see

A value is a scalar, a list or a map. The keys of a map ascend, at every depth: `Ordered` says so,
and `sorted` puts the maps of any value in order.
-/
import BraceTemplate.Dict
import BraceTemplate.Decimal.Style

namespace BraceTemplate

set_option autoImplicit false

/-- A value. -/
inductive Value where
  /-- No value: falsy, and an error when it is written out. -/
  | undefined
  | bool (b : Bool)
  | int (n : Int64)
  | float (x : Float)
  | string (s : String)
  | list (items : List Value)
  | map (entries : List (String × Value))

namespace Value

instance : Inhabited Value := ⟨.undefined⟩

/-- A count or position as a value. Beyond the 64-bit integers it is a float. -/
def ofNat (n : Nat) : Value :=
  if n ≤ 9223372036854775807 then .int (Int64.ofNat n) else .float (Float.ofNat n)

/-- The name of a value's kind. -/
def kind : Value → String
  | .undefined => "undefined"
  | .bool _ => "boolean"
  | .int _ => "integer"
  | .float _ => "float"
  | .string _ => "string"
  | .list _ => "list"
  | .map _ => "map"

/-- Whether a value counts as true: zero, the empty text, list and map, false and no value do
not. -/
def isTruthy : Value → Bool
  | .undefined => false
  | .bool b => b
  | .int n => n != 0
  | .float x => x != 0.0
  | .string s => s != ""
  | .list items => !items.isEmpty
  | .map entries => !entries.isEmpty

/-- Whether there is a value. -/
def isDefined : Value → Bool
  | .undefined => false
  | _ => true

/-- Floats are written without exponent and whole ones without a point; of two equally near
decimals the upper one is taken. -/
def floatStyle : Decimal.Style :=
  { tie := .upward, positional := fun _ => true, pointZero := false }

/-- The text of a scalar; no value, lists and maps have none. -/
def text? : Value → Option String
  | .string s => some s
  | .int n => some (toString n.toInt)
  | .float x => some (floatStyle.text x)
  | .bool b => some (if b then "true" else "false")
  | .undefined | .list _ | .map _ => none

/-- The text of a scalar, or the kind in angle brackets. -/
def display (v : Value) : String :=
  match v.text? with
  | some s => s
  | none => "<" ++ v.kind ++ ">"

/-! ## Order -/

mutual

/-- The keys of every map in a value ascend. -/
def Ordered : Value → Prop
  | .list items => orderedItems items
  | .map entries => Dict.Ascending entries ∧ orderedEntries entries
  | .undefined | .bool _ | .int _ | .float _ | .string _ => True

/-- All items are ordered. -/
def orderedItems : List Value → Prop
  | [] => True
  | v :: rest => v.Ordered ∧ orderedItems rest

/-- The values of all entries are ordered. -/
def orderedEntries : List (String × Value) → Prop
  | [] => True
  | (_, v) :: rest => v.Ordered ∧ orderedEntries rest

end

theorem orderedEntries_iff {entries : List (String × Value)} :
    orderedEntries entries ↔ ∀ e ∈ entries, e.2.Ordered := by
  induction entries with
  | nil => simp [orderedEntries]
  | cons e rest ih => simp [orderedEntries, ih]

theorem orderedEntries_insert {d : Dict Value} {key : String} {v : Value} (hd : orderedEntries d)
    (hv : v.Ordered) : orderedEntries (d.insert key v) := by
  rw [orderedEntries_iff] at hd ⊢
  intro e he
  rcases Dict.mem_insert he with rfl | he
  · exact hv
  · exact hd e he

theorem ordered_map_insert {d : Dict Value} {key : String} {v : Value}
    (hd : (Value.map d).Ordered) (hv : v.Ordered) : (Value.map (d.insert key v)).Ordered := by
  simp only [Ordered] at hd ⊢
  exact ⟨hd.1.insert key v, orderedEntries_insert hd.2 hv⟩

theorem ordered_map_foldl_insert {entries : List (String × Value)} (h : orderedEntries entries)
    {d : Dict Value} (hd : (Value.map d).Ordered) :
    (Value.map (entries.foldl (fun d e => Dict.insert d e.1 e.2) d)).Ordered := by
  induction entries generalizing d with
  | nil => exact hd
  | cons e rest ih =>
    simp only [orderedEntries] at h
    exact ih h.2 (ordered_map_insert hd h.1)

theorem ordered_map_nil : (Value.map []).Ordered := by
  simp [Ordered, orderedEntries, Dict.ascending_nil]

theorem ordered_map_ofEntries {entries : List (String × Value)} (h : orderedEntries entries) :
    (Value.map (Dict.ofEntries entries)).Ordered :=
  ordered_map_foldl_insert h ordered_map_nil

theorem ordered_of_find? {d : Dict Value} (hd : orderedEntries d) {key : String} {v : Value}
    (h : d.find? key = some v) : v.Ordered := by
  induction d with
  | nil => simp at h
  | cons e rest ih =>
    simp only [orderedEntries] at hd
    simp only [Dict.find?] at h
    split at h
    · rw [← Option.some.inj h]; exact hd.1
    · exact ih hd.2 h

mutual

/-- A value with all its maps in order; of entries with one key the last is kept. -/
def sorted : Value → Value
  | .list items => .list (sortedItems items)
  | .map entries => .map (Dict.ofEntries (sortedEntries entries))
  | .undefined => .undefined
  | .bool b => .bool b
  | .int n => .int n
  | .float x => .float x
  | .string s => .string s

/-- Items with all their maps in order. -/
def sortedItems : List Value → List Value
  | [] => []
  | v :: rest => v.sorted :: sortedItems rest

/-- Entries whose values have all their maps in order. -/
def sortedEntries : List (String × Value) → List (String × Value)
  | [] => []
  | (k, v) :: rest => (k, v.sorted) :: sortedEntries rest

end

mutual

theorem ordered_sorted : ∀ v : Value, v.sorted.Ordered
  | .list items => by simpa only [sorted, Ordered] using orderedItems_sorted items
  | .map entries => by
      simpa only [sorted] using ordered_map_ofEntries (orderedEntries_sorted entries)
  | .undefined | .bool _ | .int _ | .float _ | .string _ => by simp [sorted, Ordered]

theorem orderedItems_sorted : ∀ items : List Value, orderedItems (sortedItems items)
  | [] => by simp [sortedItems, orderedItems]
  | v :: rest => by
      simpa only [sortedItems, orderedItems] using ⟨ordered_sorted v, orderedItems_sorted rest⟩

theorem orderedEntries_sorted :
    ∀ entries : List (String × Value), orderedEntries (sortedEntries entries)
  | [] => by simp [sortedEntries, orderedEntries]
  | (_, v) :: rest => by
      simpa only [sortedEntries, orderedEntries] using
        ⟨ordered_sorted v, orderedEntries_sorted rest⟩

end

end Value

end BraceTemplate
