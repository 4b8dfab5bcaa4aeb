/-
# BraceTemplate.Value.Toml — values from TOML

Dates and times become their text; everything else has a value of its own kind.
-/
import BraceTemplate.Context
import BraceTemplate.Toml

namespace BraceTemplate

set_option autoImplicit false

namespace Value

mutual

/-- A TOML value as a value. -/
def ofToml : Toml → Value
  | .string s => .string s
  | .integer n => .int n
  | .float x => .float x
  | .boolean b => .bool b
  | .dateTime text => .string text
  | .array items => .list (ofTomlItems items)
  | .table entries => .map (Dict.ofEntries (ofTomlEntries entries))

/-- The items of a TOML array as values. -/
def ofTomlItems : List Toml → List Value
  | [] => []
  | t :: rest => ofToml t :: ofTomlItems rest

/-- The entries of a TOML table with values. -/
def ofTomlEntries : List (String × Toml) → List (String × Value)
  | [] => []
  | (k, t) :: rest => (k, ofToml t) :: ofTomlEntries rest

end

mutual

theorem ordered_ofToml : ∀ t : Toml, (ofToml t).Ordered
  | .string _ | .integer _ | .float _ | .boolean _ | .dateTime _ => by simp [ofToml, Ordered]
  | .array items => by simpa only [ofToml, Ordered] using orderedItems_ofTomlItems items
  | .table entries => by
      simpa only [ofToml] using ordered_map_ofEntries (orderedEntries_ofTomlEntries entries)

theorem orderedItems_ofTomlItems : ∀ items : List Toml, orderedItems (ofTomlItems items)
  | [] => by simp [ofTomlItems, orderedItems]
  | t :: rest => by
      simpa only [ofTomlItems, orderedItems] using
        ⟨ordered_ofToml t, orderedItems_ofTomlItems rest⟩

theorem orderedEntries_ofTomlEntries :
    ∀ entries : List (String × Toml), orderedEntries (ofTomlEntries entries)
  | [] => by simp [ofTomlEntries, orderedEntries]
  | (_, t) :: rest => by
      simpa only [ofTomlEntries, orderedEntries] using
        ⟨ordered_ofToml t, orderedEntries_ofTomlEntries rest⟩

end

end Value

/-- The variables of a TOML document. -/
def Context.ofToml (entries : List (String × Toml)) : Context :=
  ⟨Dict.ofEntries (Value.ofTomlEntries entries), by
    simpa only [Value.ofToml] using Value.ordered_ofToml (.table entries)⟩

end BraceTemplate
