/-
# BraceTemplate.Proofs.Values.Merge — the laws of merging

`Value.at? v path` is what a path of keys leads to through nested maps. Entries that are merged into
others are found under each key as the merge of what both sides have there (`find?_mergeEntries`),
so merging is settled key by key:

* `Context.empty_merge`, `Context.merge_self`: merging into nothing, or merging what is there
  already, changes nothing;
* `Context.merge_assoc`: merging is associative unless a path leads to maps on the outer sides and
  to another value in the middle (`Clash`), which hides one map from the other in one order only;
* `Context.merge_laws`: the laws together;
* `Context.foldl_merge`: associativity for any number of contexts.
-/
import Mathlib
import BraceTemplate.Context

namespace BraceTemplate

set_option autoImplicit false

namespace Value

/-- What keys lead to through nested maps. -/
def at? : Value → List String → Option Value
  | v, [] => some v
  | .map entries, key :: rest =>
      match Dict.find? entries key with
      | some v => v.at? rest
      | none => none
  | _, _ :: _ => none

@[simp] theorem at?_nil (v : Value) : v.at? [] = some v := by
  cases v <;> rfl

theorem at?_map_cons (entries : Dict Value) (key : String) (rest : List String) :
    (Value.map entries).at? (key :: rest) = (entries.find? key).bind (·.at? rest) := by
  simp only [at?]
  cases entries.find? key <;> rfl

theorem at?_cons_of_no_map {v : Value} (noMap : ∀ entries, v ≠ .map entries) (key : String)
    (rest : List String) : v.at? (key :: rest) = none := by
  cases v with
  | map entries => exact absurd rfl (noMap entries)
  | _ => rfl

/-- A path leads to maps in the outer two of three values, and to another value in the middle
one. -/
def Clash (a b c : Value) : Prop :=
  ∃ path x y z, a.at? path = some (.map x) ∧ b.at? path = some y ∧ (∀ entries, y ≠ .map entries) ∧
    c.at? path = some (.map z)

/-- What stands under a key after merging, given what both sides have there. -/
def mergeAt : Option Value → Option Value → Option Value
  | existing, none => existing
  | none, some v => some v
  | some old, some v => some (old.merge v)

theorem mergeAt_none (v : Option Value) : mergeAt none v = v := by
  cases v <;> rfl

theorem mergeAt_assoc {a b c : Option Value}
    (values : ∀ u v w, a = some u → b = some v → c = some w →
      (u.merge v).merge w = u.merge (v.merge w)) :
    mergeAt (mergeAt a b) c = mergeAt a (mergeAt b c) := by
  cases c with
  | none => rfl
  | some w =>
      cases b with
      | none => rfl
      | some v =>
          cases a with
          | none => rfl
          | some u => exact congrArg some (values u v w rfl rfl rfl)

theorem find?_mergeEntries {incoming : Dict Value} (ordered : incoming.Ascending)
    (existing : Dict Value) (key : String) :
    Dict.find? (mergeEntries existing incoming) key =
      mergeAt (existing.find? key) (incoming.find? key) := by
  induction incoming generalizing existing with
  | nil => rfl
  | cons entry rest ih =>
      obtain ⟨k, v⟩ := entry
      obtain ⟨first, others⟩ := List.pairwise_cons.1 ordered
      rw [mergeEntries]
      simp only [ih others, Dict.find?_insert, Dict.find?_cons]
      by_cases same : k = key
      · subst same
        have absent : Dict.find? rest k = none :=
          Dict.find?_eq_none_of_forall_ne fun e mem other =>
            String.lt_irrefl k (by simpa [other] using first e mem)
        rw [if_pos rfl, if_pos rfl, absent]
        cases existing.find? k <;> rfl
      · rw [if_neg same, if_neg same]

/-- A value under a key is smaller than the entries that hold it. -/
theorem sizeOf_lt_of_find? {entries : Dict Value} {key : String} {v : Value}
    (found : entries.find? key = some v) : sizeOf v < sizeOf entries := by
  induction entries with
  | nil => cases found
  | cons entry rest ih =>
      obtain ⟨k, w⟩ := entry
      rw [Dict.find?_cons] at found
      split at found
      · obtain rfl := Option.some.inj found
        simp only [List.cons.sizeOf_spec, Prod.mk.sizeOf_spec]
        omega
      · have := ih found
        simp only [List.cons.sizeOf_spec]
        omega

theorem ordered_map_iff {entries : Dict Value} :
    (Value.map entries).Ordered ↔ entries.Ascending ∧ orderedEntries entries := by
  rw [Ordered]

/-- The values under one key clash only if the maps around them do. -/
theorem Clash.of_find? {x y z : Dict Value} {key : String} {a b c : Value}
    (inA : x.find? key = some a) (inB : y.find? key = some b) (inC : z.find? key = some c)
    (clash : Clash a b c) : Clash (.map x) (.map y) (.map z) := by
  obtain ⟨path, u, v, w, atA, atB, noMap, atC⟩ := clash
  refine ⟨key :: path, u, v, w, ?_, ?_, noMap, ?_⟩
  · simp only [at?, inA, atA]
  · simp only [at?, inB, atB]
  · simp only [at?, inC, atC]

theorem merge_map (x y : Dict Value) : (Value.map x).merge (.map y) = .map (mergeEntries x y) := by
  rw [merge]

/-- A value that is no map takes the place of any other. -/
theorem merge_of_no_map (v : Value) {w : Value} (noMap : ∀ entries, w ≠ .map entries) :
    v.merge w = w := by
  cases w with
  | map entries => exact absurd rfl (noMap entries)
  | _ => rw [merge]; nofun

/-- A map takes the place of a value that is no map. -/
theorem no_map_merge {v : Value} (noMap : ∀ entries, v ≠ .map entries) (y : Dict Value) :
    v.merge (.map y) = .map y := by
  rw [merge]
  exact noMap

theorem map_or_not (v : Value) : (∃ entries, v = .map entries) ∨ ∀ entries, v ≠ .map entries := by
  cases v with
  | map entries => exact .inl ⟨entries, rfl⟩
  | _ => exact .inr nofun

/-- Unless both values are maps, the incoming one takes the place of the other. -/
theorem merge_of_not_maps {v w : Value} (apart : ¬ ∃ x y, v = .map x ∧ w = .map y) :
    v.merge w = w := by
  rcases map_or_not w with ⟨y, rfl⟩ | noMap
  · apply no_map_merge
    rintro x rfl
    exact apart ⟨x, y, rfl, rfl⟩
  · exact merge_of_no_map v noMap

theorem mergeAt_of_not_maps {old : Option Value} {v : Value}
    (apart : ¬ ∃ x y, old = some (.map x) ∧ v = .map y) : mergeAt old (some v) = some v := by
  cases old with
  | none => rfl
  | some u =>
      apply congrArg some
      apply merge_of_not_maps
      rintro ⟨x, y, rfl, same⟩
      exact apart ⟨x, y, rfl, same⟩

/-- Maps clash only if the values under some key do. -/
theorem Clash.exists_find? {x y z : Dict Value} (clash : Clash (.map x) (.map y) (.map z)) :
    ∃ key a b c, x.find? key = some a ∧ y.find? key = some b ∧ z.find? key = some c ∧
      Clash a b c := by
  obtain ⟨path, u, v, w, atA, atB, noMap, atC⟩ := clash
  cases path with
  | nil => exact absurd (Option.some.inj atB).symm (noMap y)
  | cons key rest =>
      rw [at?_map_cons] at atA atB atC
      obtain ⟨a, inA, atA⟩ := Option.bind_eq_some_iff.1 atA
      obtain ⟨b, inB, atB⟩ := Option.bind_eq_some_iff.1 atB
      obtain ⟨c, inC, atC⟩ := Option.bind_eq_some_iff.1 atC
      exact ⟨key, a, b, c, inA, inB, inC, rest, u, v, w, atA, atB, noMap, atC⟩

theorem exists_map_of_at? {v : Value} {path : List String} {x : Dict Value}
    (found : v.at? path = some (.map x)) : ∃ entries, v = .map entries := by
  rcases map_or_not v with shape | noMap
  · exact shape
  · cases path with
    | nil =>
        rw [at?_nil] at found
        exact ⟨x, Option.some.inj found⟩
    | cons key rest =>
        rw [at?_cons_of_no_map noMap] at found
        cases found

/-- Only maps clash. -/
theorem Clash.exists_maps {a b c : Value} (clash : Clash a b c) :
    ∃ x z, a = .map x ∧ c = .map z := by
  obtain ⟨path, u, v, w, atA, -, -, atC⟩ := clash
  obtain ⟨x, rfl⟩ := exists_map_of_at? atA
  obtain ⟨z, rfl⟩ := exists_map_of_at? atC
  exact ⟨x, z, rfl, rfl⟩

/-- Merging a value into itself changes nothing. -/
theorem merge_self (v : Value) (ordered : v.Ordered) : v.merge v = v := by
  rcases map_or_not v with ⟨entries, rfl⟩ | noMap
  · have below := ordered_map_iff.1 ordered
    have merged := ordered_merge (.map entries) (.map entries) ordered ordered
    rw [merge_map] at merged ⊢
    congr 1
    apply (ordered_map_iff.1 merged).1.ext below.1
    intro key
    rw [find?_mergeEntries below.1]
    cases found : Dict.find? entries key with
    | none => rfl
    | some u =>
        have smaller := sizeOf_lt_of_find? found
        exact congrArg some (merge_self u (ordered_of_find? below.2 found))
  · exact merge_of_no_map v noMap
  termination_by sizeOf v
  decreasing_by
    subst_vars
    simp only [map.sizeOf_spec]
    omega

theorem merge_assoc (c a b : Value) (orderedA : a.Ordered) (orderedB : b.Ordered)
    (orderedC : c.Ordered) (apart : ¬ Clash a b c) :
    (a.merge b).merge c = a.merge (b.merge c) := by
  rcases map_or_not c with ⟨z, rfl⟩ | noMap
  · rcases map_or_not b with ⟨y, rfl⟩ | noMap
    · rcases map_or_not a with ⟨x, rfl⟩ | noMap
      · have ordered :=
          ordered_merge (.map z) _ (ordered_merge (.map y) _ orderedA orderedB) orderedC
        have ordered' :=
          ordered_merge _ (.map x) orderedA (ordered_merge (.map z) _ orderedB orderedC)
        simp only [merge_map, ordered_map_iff] at ordered ordered' orderedA orderedB orderedC ⊢
        congr 1
        refine ordered.1.ext ordered'.1 fun key => ?_
        have inner : Dict.Ascending (mergeEntries y z) :=
          (ordered_map_iff.1 (ordered_mergeEntries z y (ordered_map_iff.2 orderedB) orderedC.2)).1
        rw [find?_mergeEntries orderedC.1, find?_mergeEntries orderedB.1, find?_mergeEntries inner,
          find?_mergeEntries orderedC.1]
        refine mergeAt_assoc fun u v w inA inB inC => ?_
        have smaller := sizeOf_lt_of_find? inC
        exact merge_assoc w u v (ordered_of_find? orderedA.2 inA)
          (ordered_of_find? orderedB.2 inB) (ordered_of_find? orderedC.2 inC)
          fun clash => apart (clash.of_find? inA inB inC)
      · rw [no_map_merge noMap, merge_map, no_map_merge noMap]
    · have noMapA : ∀ entries, a ≠ .map entries := by
        rintro x rfl
        exact apart ⟨[], x, b, z, rfl, rfl, noMap, rfl⟩
      rw [merge_of_no_map a noMap, no_map_merge noMap, no_map_merge noMapA]
  · rw [merge_of_no_map _ noMap, merge_of_no_map _ noMap, merge_of_no_map _ noMap]
  termination_by sizeOf c
  decreasing_by
    subst_vars
    simp only [map.sizeOf_spec]
    omega

end Value

namespace Context

/-- What keys lead to through nested maps, beginning with the names of variables. -/
def at? (c : Context) (path : List String) : Option Value :=
  (Value.map c.vars).at? path

/-- A path leads to maps in the outer two of three contexts, and to another value in the middle
one. -/
def Clash (a b c : Context) : Prop :=
  ∃ path x y z, a.at? path = some (.map x) ∧ b.at? path = some y ∧ (∀ entries, y ≠ .map entries) ∧
    c.at? path = some (.map z)

theorem ascending (c : Context) : c.vars.Ascending :=
  (Value.ordered_map_iff.1 c.ordered).1

theorem ext_vars {a b : Context} (same : a.vars = b.vars) : a = b := by
  cases a
  cases b
  cases same
  rfl

/-- Contexts that bind the same names to the same values are equal. -/
theorem ext_find? {a b : Context} (same : ∀ name, a.find? name = b.find? name) : a = b :=
  ext_vars (a.ascending.ext b.ascending same)

theorem find?_merge (a b : Context) (name : String) :
    (a.merge b).find? name = Value.mergeAt (a.find? name) (b.find? name) :=
  Value.find?_mergeEntries b.ascending a.vars name

@[simp] theorem empty_merge (c : Context) : empty.merge c = c :=
  ext_find? fun name => by rw [find?_merge]; exact Value.mergeAt_none _

@[simp] theorem merge_empty (c : Context) : c.merge empty = c :=
  rfl

@[simp] theorem merge_self (c : Context) : c.merge c = c := by
  have merged := Value.merge_self (.map c.vars) c.ordered
  rw [Value.merge_map, Value.map.injEq] at merged
  exact ext_vars merged

theorem merge_assoc {a b c : Context} (apart : ¬ Clash a b c) :
    (a.merge b).merge c = a.merge (b.merge c) := by
  have merged := Value.merge_assoc (.map c.vars) (.map a.vars) (.map b.vars) a.ordered b.ordered
    c.ordered apart
  simp only [Value.merge_map, Value.map.injEq] at merged
  exact ext_vars merged

/-- **The laws of merging.** No variables are neutral on both sides, variables merged into
themselves stay as they are, and it does not matter which of two merges is done first unless the
variables in the middle hide a map from a map. -/
theorem merge_laws (a b c : Context) :
    empty.merge a = a ∧ a.merge empty = a ∧ a.merge a = a ∧
      (¬ Clash a b c → (a.merge b).merge c = a.merge (b.merge c)) :=
  ⟨empty_merge a, merge_empty a, merge_self a, merge_assoc⟩

/-- Maps that are merged three times do not clash, nor does a title that becomes a map at last. -/
theorem merge_laws_sites :
    let a := ofEntries [("site", .map [("name", .string "N")]), ("title", .string "T")]
    let b := ofEntries [("site", .map [("lang", .string "en")]), ("title", .int 5)]
    let c := ofEntries [("site", .map [("name", .string "M")]), ("title", .map [("de", .int 6)])]
    ¬ Clash a b c ∧ (a.merge b).merge c = a.merge (b.merge c) ∧
      (a.merge (b.merge c)).at? ["site", "name"] = some (.string "M") := by
  intro a b c
  have varsA : a.vars = [("site", .map [("name", .string "N")]), ("title", .string "T")] := by cbv
  have varsB : b.vars = [("site", .map [("lang", .string "en")]), ("title", .int 5)] := by cbv
  have apart : ¬ Clash a b c := by
    intro clash
    obtain ⟨key, u, v, w, inA, inB, -, clash⟩ := Value.Clash.exists_find? clash
    obtain ⟨x, z, rfl, rfl⟩ := clash.exists_maps
    rw [varsA] at inA
    rw [varsB] at inB
    by_cases site : "site" = key
    · subst site
      obtain rfl : [("name", .string "N")] = x := Value.map.inj (Option.some.inj inA)
      obtain rfl : .map [("lang", .string "en")] = v := Option.some.inj inB
      obtain ⟨key, u, v, w, inA, -, -, clash⟩ := clash.exists_find?
      obtain ⟨x, -, rfl, -⟩ := clash.exists_maps
      simp [Dict.find?_cons] at inA
    · simp [Dict.find?_cons, site] at inA
  exact ⟨apart, (merge_laws a b c).2.2.2 apart, by cbv⟩

theorem not_clash_empty (a c : Context) : ¬ Clash a empty c := by
  rintro ⟨path, x, y, z, -, atB, noMap, -⟩
  cases path with
  | nil => exact noMap [] (Option.some.inj atB).symm
  | cons key rest => cases atB

/-- All of several contexts, each merged into those before it. -/
def mergeAll (contexts : List Context) : Context :=
  contexts.foldl merge empty

theorem mergeAll_append (first second : List Context) :
    mergeAll (first ++ second) = second.foldl merge (mergeAll first) :=
  List.foldl_append

theorem mergeAll_concat (first : List Context) (c : Context) :
    mergeAll (first ++ [c]) = (mergeAll first).merge c :=
  mergeAll_append first [c]

/-- Merging several contexts one by one or all at once is the same, where none of them clashes with
the base and those before it. -/
theorem foldl_merge {base : Context} {contexts : List Context}
    (apart : ∀ front c back, contexts = front ++ c :: back → ¬ Clash base (mergeAll front) c) :
    contexts.foldl merge base = base.merge (mergeAll contexts) := by
  induction contexts using List.reverseRecOn with
  | nil => rfl
  | append_singleton front c ih =>
      have before : ∀ front' c' back, front = front' ++ c' :: back →
          ¬ Clash base (mergeAll front') c' := by
        rintro front' c' back rfl
        exact apart front' c' (back ++ [c]) (by simp)
      rw [List.foldl_append, ih before, mergeAll_concat]
      exact merge_assoc (apart front c [] rfl)

end Context

end BraceTemplate
