/-
# BraceTemplate.Context — the global variables of a render

A context binds names to values; its maps are in order at every depth. Merging is deep: where both
sides hold maps they are merged, anywhere else the incoming value replaces the other.
-/
import BraceTemplate.Value.Json

namespace BraceTemplate

set_option autoImplicit false

namespace Value

mutual

/-- The value that results when an incoming value is merged into one. -/
def merge (existing : Value) : Value → Value
  | .map incoming =>
      match existing with
      | .map entries => .map (mergeEntries entries incoming)
      | _ => .map incoming
  | incoming => incoming

/-- The entries that result when incoming entries are merged into others one by one. -/
def mergeEntries (existing : List (String × Value)) :
    List (String × Value) → List (String × Value)
  | [] => existing
  | (k, v) :: rest =>
      let merged := match Dict.find? existing k with
        | some old => old.merge v
        | none => v
      mergeEntries (Dict.insert existing k merged) rest

end

mutual

theorem ordered_merge : ∀ (incoming existing : Value), existing.Ordered → incoming.Ordered →
    (existing.merge incoming).Ordered
  | .map incoming, existing, he, hi => by
      simp only [merge]
      split
      · exact ordered_mergeEntries incoming _ he (by simp only [Ordered] at hi; exact hi.2)
      · exact hi
  | .undefined, _, _, hi | .bool _, _, _, hi | .int _, _, _, hi | .float _, _, _, hi
  | .string _, _, _, hi | .list _, _, _, hi => by simpa only [merge] using hi

theorem ordered_mergeEntries : ∀ (incoming existing : List (String × Value)),
    (Value.map existing).Ordered → orderedEntries incoming →
      (Value.map (mergeEntries existing incoming)).Ordered
  | [], _, he, _ => by simpa only [mergeEntries] using he
  | (k, v) :: rest, existing, he, hi => by
      simp only [orderedEntries] at hi
      simp only [mergeEntries]
      refine ordered_mergeEntries rest _ (ordered_map_insert he ?_) hi.2
      split
      · next old hold =>
        exact ordered_merge v old
          (ordered_of_find? (by simp only [Ordered] at he; exact he.2) hold) hi.1
      · exact hi.1

end

end Value

/-- The global variables of a render. -/
structure Context where
  vars : Dict Value
  /-- The names ascend, and so do the keys of all maps. -/
  ordered : (Value.map vars).Ordered

namespace Context

/-- No variables. -/
def empty : Context :=
  ⟨[], Value.ordered_map_nil⟩

instance : Inhabited Context := ⟨empty⟩

/-- The variables that a map's entries bind, if the value is a map. -/
def ofOrdered? (v : Value) (h : v.Ordered) : Option Context :=
  match v, h with
  | .map vars, h => some ⟨vars, h⟩
  | _, _ => none

/-- The variables of a JSON object. -/
def ofJson? (j : Json) : Option Context :=
  ofOrdered? (Value.ofJson j) (Value.ordered_ofJson j)

/-- The variables of a JSON object, or a message that says what there is instead. -/
def ofJson (j : Json) : Except String Context :=
  match ofJson? j with
  | some c => .ok c
  | none => .error ("template context must be a map, found " ++ (Value.ofJson j).kind)

/-- The variables that entries bind; of entries with one name the last is kept. -/
def ofEntries (entries : List (String × Value)) : Context :=
  ⟨Dict.ofEntries (Value.sortedEntries entries), by
    simpa only [Value.sorted] using Value.ordered_sorted (.map entries)⟩

/-- The value bound to a name. -/
def find? (c : Context) (name : String) : Option Value :=
  c.vars.find? name

/-- Whether a name is bound. -/
def contains (c : Context) (name : String) : Bool :=
  c.vars.contains name

/-- The number of variables. -/
def size (c : Context) : Nat :=
  c.vars.length

/-- Binds a name, in place of its value before. -/
def insert (c : Context) (name : String) (v : Value) : Context :=
  ⟨c.vars.insert name v.sorted, Value.ordered_map_insert c.ordered (Value.ordered_sorted v)⟩

/-- The variables of a context with those of another merged in. -/
def merge (c incoming : Context) : Context :=
  ⟨Value.mergeEntries c.vars incoming.vars,
    Value.ordered_mergeEntries _ _ c.ordered (by
      have := incoming.ordered
      simp only [Value.Ordered] at this
      exact this.2)⟩

end Context

end BraceTemplate
