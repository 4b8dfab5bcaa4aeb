/-
# BraceTemplate.Proofs.Render.Binding — the two names of a loop

A loop binds its item and the position of the item under two names. Local variables in order are
determined by their look-ups, so that

* `bindItem_bindItem`: binding the next item leaves nothing of the one before it;
* `unbindItem_bindItem`: unbinding restores whatever the two names were bound to.
-/
import BraceTemplate.Render.Machine

namespace BraceTemplate

set_option autoImplicit false

namespace Dict

variable {α : Type}

theorem find?_assign (d : Dict α) (key other : String) (value : Option α) :
    (d.assign key value).find? other = if key = other then value else d.find? other := by
  cases value with
  | none => exact find?_erase d key other
  | some v => exact find?_insert d key v other

theorem Ascending.assign {d : Dict α} (ordered : d.Ascending) (key : String) (value : Option α) :
    (d.assign key value).Ascending := by
  cases value with
  | none => exact ordered.erase key
  | some v => exact ordered.insert key v

end Dict

section

variable {locals : Dict Value}

/-- The index name is bound last, so it wins where another item has its name. -/
theorem find?_bindItem (locals : Dict Value) (item : String) (v : Value) (index : Nat)
    (name : String) :
    (bindItem locals item v index).find? name =
      if name = indexName item then some (Value.ofNat index)
      else if name = item then some v
      else locals.find? name := by
  simp only [bindItem, Dict.find?_insert, eq_comm]

theorem ascending_bindItem (ordered : locals.Ascending) (item : String) (v : Value) (index : Nat) :
    (bindItem locals item v index).Ascending :=
  (ordered.insert item v).insert (indexName item) _

theorem bindItem_bindItem (ordered : locals.Ascending) (item : String) (v w : Value) (i j : Nat) :
    bindItem (bindItem locals item v i) item w j = bindItem locals item w j := by
  apply Dict.Ascending.ext (ascending_bindItem (ascending_bindItem ordered _ _ _) _ _ _)
    (ascending_bindItem ordered _ _ _)
  intro name
  rw [find?_bindItem, find?_bindItem, find?_bindItem]
  split
  · rfl
  · split <;> rfl

open Machine in
/-- What a loop saved when it began is what unbinding needs. -/
theorem unbindItem_bindItem (ordered : locals.Ascending) {l : Loop} (v : Value) (index : Nat)
    (savedItem : l.outerItem = locals.find? l.item)
    (savedIndex : l.outerIndex = locals.find? (indexName l.item)) :
    unbindItem (bindItem locals l.item v index) l = locals := by
  apply Dict.Ascending.ext
    (((ascending_bindItem ordered _ _ _).assign _ _).assign _ _) ordered
  intro name
  rw [Dict.find?_assign, Dict.find?_assign, find?_bindItem]
  by_cases isIndex : indexName l.item = name
  · rw [if_pos isIndex, savedIndex, isIndex]
  · rw [if_neg isIndex]
    by_cases isItem : l.item = name
    · rw [if_pos isItem, savedItem, isItem]
    · rw [if_neg isItem, if_neg (Ne.symm isIndex), if_neg (Ne.symm isItem)]

end

end BraceTemplate
