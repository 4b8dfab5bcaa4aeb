/-
# BraceTemplate.Proofs.Values.Paths — merged variables at every path

A path of keys leads through nested maps to a value, or to nothing. It is blocked in a value when
it meets a value that is no map before its end (`Value.Blocks`). What a path leads to after merging
depends only on what it meets in both sides:

* `Value.at?_merge_of_found`: where the incoming side has a value, it is merged into what is there;
* `Value.at?_merge_of_blocks`: where the incoming side blocks the path, there is nothing;
* `Value.at?_merge_of_absent`: anywhere else the value is that of the other side;
* `Context.at?_merge`: the three cases together, with the keys of maps that meet.
-/
import BraceTemplate.Proofs.Values.Merge

namespace BraceTemplate

set_option autoImplicit false

namespace Value

/-! ## Paths -/

theorem at?_append (v : Value) (front rest : List String) :
    v.at? (front ++ rest) = (v.at? front).bind (·.at? rest) := by
  induction front generalizing v with
  | nil => simp
  | cons key front ih =>
      rcases map_or_not v with ⟨entries, rfl⟩ | noMap
      · rw [List.cons_append, at?_map_cons, at?_map_cons]
        cases Dict.find? entries key with
        | none => rfl
        | some w => exact ih w
      · rw [List.cons_append, at?_cons_of_no_map noMap, at?_cons_of_no_map noMap]
        rfl

theorem ordered_of_at? {v w : Value} {path : List String} (ordered : v.Ordered)
    (found : v.at? path = some w) : w.Ordered := by
  induction path generalizing v with
  | nil =>
      rw [at?_nil] at found
      exact Option.some.inj found ▸ ordered
  | cons key rest ih =>
      rcases map_or_not v with ⟨entries, rfl⟩ | noMap
      · rw [at?_map_cons] at found
        obtain ⟨u, inner, found⟩ := Option.bind_eq_some_iff.1 found
        exact ih (ordered_of_find? (ordered_map_iff.1 ordered).2 inner) found
      · rw [at?_cons_of_no_map noMap] at found
        cases found

/-- A path meets a value that is no map before it ends. -/
def Blocks (v : Value) (path : List String) : Prop :=
  ∃ front rest w, path = front ++ rest ∧ rest ≠ [] ∧ v.at? front = some w ∧
    ∀ entries, w ≠ .map entries

theorem blocks_of_no_map {v : Value} (noMap : ∀ entries, v ≠ .map entries) (key : String)
    (rest : List String) : v.Blocks (key :: rest) :=
  ⟨[], key :: rest, v, rfl, by simp, at?_nil v, noMap⟩

theorem blocks_map_cons {entries : Dict Value} {key : String} {rest : List String} :
    (Value.map entries).Blocks (key :: rest) ↔
      ∃ v, entries.find? key = some v ∧ v.Blocks rest := by
  constructor
  · rintro ⟨front, back, w, same, nonempty, met, noMap⟩
    cases front with
    | nil =>
        rw [at?_nil] at met
        exact absurd (Option.some.inj met).symm (noMap entries)
    | cons key' front =>
        obtain ⟨rfl, rfl⟩ := List.cons.inj same
        rw [at?_map_cons] at met
        obtain ⟨v, found, met⟩ := Option.bind_eq_some_iff.1 met
        exact ⟨v, found, front, back, w, rfl, nonempty, met, noMap⟩
  · rintro ⟨v, found, front, back, w, rfl, nonempty, met, noMap⟩
    refine ⟨key :: front, back, w, rfl, nonempty, ?_, noMap⟩
    rw [at?_map_cons, found]
    exact met

/-! ## Merging -/

/-- Maps that are merged hold under each key the merge of what they held there. -/
theorem at?_merge_cons (x : Dict Value) {y : Dict Value} (ordered : y.Ascending) (key : String)
    (rest : List String) :
    ((Value.map x).merge (.map y)).at? (key :: rest) =
      (mergeAt (x.find? key) (y.find? key)).bind (·.at? rest) := by
  rw [merge_map, at?_map_cons, find?_mergeEntries ordered]

/-- Where the incoming value has something at a path, it is merged into what is there. -/
theorem at?_merge_of_found {a b w : Value} {path : List String} (ordered : b.Ordered)
    (found : b.at? path = some w) : (a.merge b).at? path = mergeAt (a.at? path) (some w) := by
  induction path generalizing a b with
  | nil =>
      rw [at?_nil] at found
      simp only [at?_nil, mergeAt, Option.some.inj found]
  | cons key rest ih =>
      rcases map_or_not b with ⟨y, rfl⟩ | noMap
      · have below := ordered_map_iff.1 ordered
        rcases map_or_not a with ⟨x, rfl⟩ | noMap
        · rw [at?_merge_cons x below.1]
          rw [at?_map_cons] at found ⊢
          obtain ⟨v, inner, found⟩ := Option.bind_eq_some_iff.1 found
          rw [inner]
          cases Dict.find? x key with
          | none => exact found
          | some u => exact ih (ordered_of_find? below.2 inner) found
        · rw [no_map_merge noMap, found, at?_cons_of_no_map noMap]
          rfl
      · rw [at?_cons_of_no_map noMap] at found
        cases found

/-- Where the incoming value blocks a path, the path leads to nothing. -/
theorem at?_merge_of_blocks {a b : Value} {path : List String} (ordered : b.Ordered)
    (blocks : b.Blocks path) : (a.merge b).at? path = none := by
  obtain ⟨front, rest, w, rfl, nonempty, met, noMap⟩ := blocks
  have replaced : (a.merge b).at? front = some w := by
    rw [at?_merge_of_found ordered met]
    cases a.at? front with
    | none => rfl
    | some u => exact congrArg some (merge_of_no_map u noMap)
  obtain ⟨key, rest, rfl⟩ := List.exists_cons_of_ne_nil nonempty
  rw [at?_append, replaced]
  exact at?_cons_of_no_map noMap key rest

/-- Where the incoming value has nothing at a path and does not block it, nothing changes. -/
theorem at?_merge_of_absent {a b : Value} {path : List String} (ordered : b.Ordered)
    (absent : b.at? path = none) (free : ¬ b.Blocks path) : (a.merge b).at? path = a.at? path := by
  induction path generalizing a b with
  | nil => simp at absent
  | cons key rest ih =>
      rcases map_or_not b with ⟨y, rfl⟩ | noMap
      · have below := ordered_map_iff.1 ordered
        rw [at?_map_cons] at absent
        rcases map_or_not a with ⟨x, rfl⟩ | noMap
        · rw [at?_merge_cons x below.1, at?_map_cons]
          cases inner : Dict.find? y key with
          | none => rfl
          | some v =>
              rw [inner] at absent
              cases Dict.find? x key with
              | none => exact absent
              | some u =>
                  apply ih (ordered_of_find? below.2 inner) absent
                  intro blocks
                  exact free (blocks_map_cons.2 ⟨v, inner, blocks⟩)
        · rw [no_map_merge noMap, at?_map_cons, absent, at?_cons_of_no_map noMap]
      · exact absurd (blocks_of_no_map noMap key rest) free

/-- The keys of maps that are merged are those of both. -/
theorem mem_keys_mergeEntries (x : Dict Value) {y : Dict Value} (ordered : y.Ascending)
    (key : String) : key ∈ Dict.keys (mergeEntries x y) ↔ key ∈ x.keys ∨ key ∈ y.keys := by
  simp only [Dict.mem_keys_iff, find?_mergeEntries ordered]
  cases Dict.find? x key <;> cases Dict.find? y key <;> simp [mergeAt]

end Value

namespace Context

/-- A path of names and keys meets a value that is no map before it ends. -/
def Blocks (c : Context) (path : List String) : Prop :=
  (Value.map c.vars).Blocks path

/-- What a path leads to in merged variables, by what it leads to on both sides. -/
theorem at?_merge (a b : Context) (path : List String) :
    (∀ v, b.at? path = some v →
        (¬ ∃ x y, a.at? path = some (.map x) ∧ b.at? path = some (.map y)) →
          (a.merge b).at? path = some v) ∧
      (∀ x y, a.at? path = some (.map x) → b.at? path = some (.map y) →
        ∃ z, (a.merge b).at? path = some (.map z) ∧
          ∀ key, key ∈ Dict.keys z ↔ key ∈ Dict.keys x ∨ key ∈ Dict.keys y) ∧
      (b.at? path = none → b.Blocks path → (a.merge b).at? path = none) ∧
      (b.at? path = none → ¬ b.Blocks path → (a.merge b).at? path = a.at? path) := by
  have merged : Value.map (a.merge b).vars = (Value.map a.vars).merge (.map b.vars) :=
    (Value.merge_map a.vars b.vars).symm
  simp only [at?, merged]
  refine ⟨?_, ?_, ?_, ?_⟩
  · intro v found apart
    rw [Value.at?_merge_of_found b.ordered found]
    apply Value.mergeAt_of_not_maps
    rintro ⟨x, y, old, rfl⟩
    exact apart ⟨x, y, old, found⟩
  · intro x y old found
    refine ⟨Value.mergeEntries x y, ?_, ?_⟩
    · rw [Value.at?_merge_of_found b.ordered found, old]
      exact congrArg some (Value.merge_map x y)
    · exact Value.mem_keys_mergeEntries x
        (Value.ordered_map_iff.1 (Value.ordered_of_at? b.ordered found)).1
  · intro _ blocks
    exact Value.at?_merge_of_blocks b.ordered blocks
  · intro absent free
    exact Value.at?_merge_of_absent b.ordered absent free

/-- A name is replaced, the keys of two maps come together, a page that is a number now hides what
was in it, and a port that only one side knows is kept. -/
theorem at?_merge_sites :
    let a := Context.ofEntries
      [("page", .map [("title", .string "T")]),
        ("site", .map [("name", .string "N"), ("port", .int 80)])]
    let b := Context.ofEntries
      [("page", .int 1), ("site", .map [("lang", .string "en"), ("name", .string "M")])]
    (a.merge b).at? ["site", "name"] = some (.string "M") ∧
      (∃ z, (a.merge b).at? ["site"] = some (.map z) ∧ "port" ∈ Dict.keys z ∧
        "lang" ∈ Dict.keys z ∧ "page" ∉ Dict.keys z) ∧
      (a.merge b).at? ["page", "title"] = none ∧
      (a.merge b).at? ["site", "port"] = some (.int 80) := by
  intro a b
  have siteOf : a.at? ["site"] = some (.map [("name", .string "N"), ("port", .int 80)]) := by cbv
  have siteOf' : b.at? ["site"] = some (.map [("lang", .string "en"), ("name", .string "M")]) := by
    cbv
  have number : b.Blocks ["page", "title"] :=
    ⟨["page"], ["title"], .int 1, rfl, by simp, by cbv, by simp⟩
  have free : ¬ b.Blocks ["site", "port"] := by
    intro blocks
    obtain ⟨v, found, blocks⟩ := Value.blocks_map_cons.1 blocks
    obtain rfl : v = .map [("lang", .string "en"), ("name", .string "M")] :=
      Option.some.inj (found.symm.trans (by cbv))
    obtain ⟨w, found, -⟩ := Value.blocks_map_cons.1 blocks
    have absent : Dict.find? [("lang", Value.string "en"), ("name", .string "M")] "port" = none := by
      cbv
    rw [absent] at found
    cases found
  refine ⟨?_, ?_, ?_, ?_⟩
  · apply (at?_merge a b ["site", "name"]).1
    · cbv
    · rintro ⟨x, y, old, -⟩
      have name : a.at? ["site", "name"] = some (.string "N") := by cbv
      rw [name] at old
      cases old
  · obtain ⟨z, merged, keys⟩ := (at?_merge a b ["site"]).2.1 _ _ siteOf siteOf'
    exact ⟨z, merged, (keys _).2 (by decide), (keys _).2 (by decide), mt (keys _).1 (by decide)⟩
  · exact (at?_merge a b ["page", "title"]).2.2.1 (by cbv) number
  · rw [(at?_merge a b ["site", "port"]).2.2.2 (by cbv) free]
    cbv

end Context

end BraceTemplate
