/-
# BraceTemplate.Proofs.Assignment.Scope — what an assignment changes

The key of an assignment is made of parts with dots between them, and the parts without the blanks
around them are a path (`Divided`, `path`). An assignment binds its value at the end of that path,
inside maps with one key each (`Value.nested`), and nothing else:

* `parse_of_divided`: an assignment is read exactly if no part of its key is blank;
* `Value.at?_merge_nested`: what is merged inside such maps comes to the end of the path;
* `Value.at?_merge_nested_of_diverges`: a path that parts from it leads where it led before;
* `merge_parse`: both for an assignment and any variables.
-/
import BraceTemplate.Assignment
import BraceTemplate.Proofs.Values.Paths

namespace BraceTemplate

set_option autoImplicit false

/-! ## Paths that part -/

/-- Two paths differ at a position that both of them have. -/
def Diverges (path other : List String) : Prop :=
  ∃ i : Nat, i < path.length ∧ i < other.length ∧ path[i]? ≠ other[i]?

theorem not_diverges_nil (path : List String) : ¬ Diverges path [] := by
  rintro ⟨i, -, short, -⟩
  simp at short

theorem not_nil_diverges (path : List String) : ¬ Diverges [] path := by
  rintro ⟨i, short, -⟩
  simp at short

theorem diverges_cons {key other : String} {path rest : List String} :
    Diverges (key :: path) (other :: rest) ↔ key ≠ other ∨ Diverges path rest := by
  constructor
  · rintro ⟨i, short, short', differ⟩
    cases i with
    | zero =>
        left
        simpa using differ
    | succ i =>
        right
        refine ⟨i, ?_, ?_, ?_⟩
        · simpa using short
        · simpa using short'
        · simpa using differ
  · rintro (differ | ⟨i, short, short', differ⟩)
    · refine ⟨0, by simp, by simp, ?_⟩
      simpa using differ
    · refine ⟨i + 1, ?_, ?_, ?_⟩
      · simpa using short
      · simpa using short'
      · simpa using differ

namespace Value

/-- A value inside maps with one key each. -/
def nested (v : Value) : List String → Value
  | [] => v
  | key :: rest => .map [(key, v.nested rest)]

theorem find?_singleton (key other : String) (v : Value) :
    Dict.find? [(key, v)] other = if key = other then some v else none := rfl

theorem ordered_nested {v : Value} (ordered : v.Ordered) (path : List String) :
    (v.nested path).Ordered := by
  induction path with
  | nil => exact ordered
  | cons key rest ih => simp [nested, ordered_map_iff, orderedEntries, Dict.Ascending, ih]

theorem at?_nested (v : Value) (path : List String) : (v.nested path).at? path = some v := by
  induction path with
  | nil => exact at?_nil v
  | cons key rest ih => simp [nested, at?_map_cons, find?_singleton, ih]

theorem at?_nested_of_diverges (v : Value) {path other : List String}
    (apart : Diverges path other) : (v.nested path).at? other = none := by
  induction path generalizing other with
  | nil => exact absurd apart (not_nil_diverges other)
  | cons key rest ih =>
      cases other with
      | nil => exact absurd apart (not_diverges_nil _)
      | cons key' other =>
          by_cases same : key = key'
          · have below := (diverges_cons.1 apart).resolve_left (not_not.2 same)
            simp [nested, at?_map_cons, find?_singleton, same, ih below]
          · simp [nested, at?_map_cons, find?_singleton, same]

/-- Maps with one key each block no path that parts from theirs. -/
theorem not_blocks_nested (v : Value) {path other : List String} (apart : Diverges path other) :
    ¬ (v.nested path).Blocks other := by
  induction path generalizing other with
  | nil => exact absurd apart (not_nil_diverges other)
  | cons key rest ih =>
      cases other with
      | nil => exact absurd apart (not_diverges_nil _)
      | cons key' other =>
          intro blocks
          obtain ⟨w, found, blocks⟩ := blocks_map_cons.1 blocks
          rw [find?_singleton] at found
          split at found
          · next same =>
            obtain rfl := Option.some.inj found
            exact ih ((diverges_cons.1 apart).resolve_left (not_not.2 same)) blocks
          · cases found

/-- What is merged inside maps with one key each is merged into what their path leads to. -/
theorem at?_merge_nested (u : Value) {v : Value} (ordered : v.Ordered) (path : List String) :
    (u.merge (v.nested path)).at? path = mergeAt (u.at? path) (some v) :=
  at?_merge_of_found (ordered_nested ordered path) (at?_nested v path)

/-- What is merged inside maps with one key each changes nothing at a path that parts from
theirs. -/
theorem at?_merge_nested_of_diverges (u : Value) {v : Value} (ordered : v.Ordered)
    {path other : List String} (apart : Diverges path other) :
    (u.merge (v.nested path)).at? other = u.at? other :=
  at?_merge_of_absent (ordered_nested ordered path) (at?_nested_of_diverges v apart)
    (not_blocks_nested v apart)

end Value

namespace Assignment

open Text

theorem ofToml_nest (v : Toml) (path : List String) :
    Value.ofToml (nest v path) = (Value.ofToml v).nested path := by
  induction path with
  | nil => rfl
  | cons key rest ih =>
      rw [nest, Value.ofToml, Value.ofTomlEntries, Value.ofTomlEntries, ih]
      rfl

/-! ## Reading -/

/-- A text is an assignment to a key that has parts with dots between them. -/
structure Divided (text : String) (parts : List (List Char)) (raw : List Char) : Prop where
  nonempty : parts ≠ []
  toList : text.toList = joinWith ['.'] parts ++ '=' :: raw
  plain : ∀ part ∈ parts, '.' ∉ part ∧ '=' ∉ part

/-- The path that the parts of a key spell. -/
def path (parts : List (List Char)) : List String :=
  parts.map fun part => String.ofList (trim part)

/-- The value that is assigned, given a reader of TOML. -/
def valueBy (R : Toml.Reader) (raw : List Char) : Value :=
  Value.ofToml (literalBy R (trim raw))

/-- The value that is assigned. -/
def value (raw : List Char) : Value :=
  valueBy Toml.reader raw

/-- Some character of a text is no blank. -/
def Filled (part : List Char) : Prop :=
  ∃ c ∈ part, isBlank c = false

instance (part : List Char) : Decidable (Filled part) :=
  decidable_of_iff ((part.any fun c => !isBlank c) = true) (by simp [Filled])

theorem filled_iff {part : List Char} : Filled part ↔ trim part ≠ [] := by
  simp only [Filled, ne_eq, trim_eq_nil_iff, not_forall, Bool.not_eq_true, exists_prop]

theorem keyParts?_joinWith {parts : List (List Char)} (nonempty : parts ≠ [])
    (plain : ∀ part ∈ parts, '.' ∉ part) :
    ((∀ part ∈ parts, Filled part) ∧ keyParts? (joinWith ['.'] parts) = some (path parts)) ∨
      ((∃ part ∈ parts, ¬ Filled part) ∧ keyParts? (joinWith ['.'] parts) = none) := by
  have shape : keyParts? (joinWith ['.'] parts) =
      if (parts.map trim).any List.isEmpty then none else some (path parts) := by
    rw [keyParts?, splitAt_joinWith nonempty plain]
    simp only [path, List.map_map]
    rfl
  by_cases filled : ∀ part ∈ parts, Filled part
  · left
    refine ⟨filled, ?_⟩
    rw [shape, if_neg]
    simp only [List.any_eq_true, List.mem_map, List.isEmpty_iff]
    rintro ⟨_, ⟨part, mem, rfl⟩, empty⟩
    exact filled_iff.1 (filled part mem) empty
  · right
    simp only [not_forall, exists_prop] at filled
    obtain ⟨part, mem, blank⟩ := filled
    refine ⟨⟨part, mem, blank⟩, ?_⟩
    rw [shape, if_pos]
    simp only [List.any_eq_true, List.mem_map, List.isEmpty_iff]
    exact ⟨trim part, ⟨part, mem, rfl⟩, not_not.1 (mt filled_iff.2 blank)⟩

/-- A text with an equals sign is an assignment to some key. -/
theorem exists_divided {text : String} {key raw : List Char}
    (cut : cutAt? (· == '=') text.toList = some (key, raw)) :
    Divided text (splitAt '.' key) raw := by
  obtain ⟨c, sign, before, same⟩ := eq_of_cutAt?_eq_some cut
  obtain rfl : c = '=' := by simpa using sign
  refine ⟨splitAt_ne_nil '.' key, ?_, ?_⟩
  · rw [joinWith_splitAt]
    exact same
  · intro part mem
    refine ⟨not_mem_of_mem_splitAt mem, ?_⟩
    intro inside
    have inKey : '=' ∈ joinWith ['.'] (splitAt '.' key) :=
      (mem_joinWith_iff (by decide)).2 ⟨part, mem, inside⟩
    rw [joinWith_splitAt] at inKey
    simpa using before '=' inKey

theorem Divided.cutAt? {text : String} {parts : List (List Char)} {raw : List Char}
    (divided : Divided text parts raw) :
    cutAt? (· == '=') text.toList = some (joinWith ['.'] parts, raw) := by
  have absent : '=' ∉ joinWith ['.'] parts := by
    intro mem
    obtain ⟨part, inParts, inside⟩ := (mem_joinWith_iff (by decide)).1 mem
    exact (divided.plain part inParts).2 inside
  rw [divided.toList]
  exact cutAt?_append_char absent raw

/-- An assignment is read exactly if no part of its key is blank, and binds its value at the end
of the path that the parts spell. -/
theorem parse_of_divided (R : Toml.Reader) {text : String} {parts : List (List Char)}
    {raw : List Char} (divided : Divided text parts raw) :
    ((∀ part ∈ parts, Filled part) ∧
        ∃ d, parseBy R text = .ok d ∧ Value.map d.vars = (valueBy R raw).nested (path parts)) ∨
      ((∃ part ∈ parts, ¬ Filled part) ∧
        parseBy R text = .error (.invalidValue text "empty key")) := by
  rw [parseBy, divided.cutAt?]
  rcases keyParts?_joinWith divided.nonempty fun part mem => (divided.plain part mem).1 with
    ⟨filled, keys⟩ | ⟨blank, keys⟩
  · left
    refine ⟨filled, ?_⟩
    simp only [keys]
    cases spelled : path parts with
    | nil => exact absurd (List.map_eq_nil_iff.1 spelled) divided.nonempty
    | cons key rest =>
        refine ⟨_, rfl, ?_⟩
        exact ofToml_nest (literalBy R (trim raw)) (key :: rest)
  · right
    refine ⟨blank, ?_⟩
    simp only [keys]

/-- A text is an assignment exactly if it has an equals sign and no part in front of it is blank. -/
theorem exists_parse_iff (R : Toml.Reader) (text : String) :
    (∃ d, parseBy R text = .ok d) ↔
      ∃ parts raw, Divided text parts raw ∧ ∀ part ∈ parts, Filled part := by
  constructor
  · rintro ⟨d, parsed⟩
    cases cut : cutAt? (· == '=') text.toList with
    | none =>
        rw [parseBy, cut] at parsed
        cases parsed
    | some pair =>
        have divided := exists_divided cut
        rcases parse_of_divided R divided with ⟨filled, -⟩ | ⟨-, refused⟩
        · exact ⟨_, _, divided, filled⟩
        · rw [refused] at parsed
          cases parsed
  · rintro ⟨parts, raw, divided, filled⟩
    rcases parse_of_divided R divided with ⟨-, d, parsed, -⟩ | ⟨⟨part, mem, blank⟩, -⟩
    · exact ⟨d, parsed⟩
    · exact absurd (filled part mem) blank

/-- An assignment binds its value inside maps with one key each. -/
theorem vars_of_parse {R : Toml.Reader} {text : String} {parts : List (List Char)}
    {raw : List Char} {d : Context} (divided : Divided text parts raw)
    (parsed : parseBy R text = .ok d) :
    Value.map d.vars = (valueBy R raw).nested (path parts) := by
  rcases parse_of_divided R divided with ⟨-, d', parsed', bound⟩ | ⟨-, refused⟩
  · obtain rfl := Except.ok.inj (parsed.symm.trans parsed')
    exact bound
  · rw [refused] at parsed
    cases parsed

/-- **An assignment changes what its path leads to, and nothing beside it.** A text is an assignment
exactly if it has an equals sign and no part of the key in front of the first one is blank. After it
is merged into variables, the path of its key leads to its value (merged into the map that was
there, if both are maps), and every path that parts from it leads where it led before. -/
theorem merge_parse (text : String) :
    ((∃ d, parse text = .ok d) ↔
        ∃ parts raw, Divided text parts raw ∧ ∀ part ∈ parts, Filled part) ∧
      ∀ parts raw d, Divided text parts raw → parse text = .ok d → ∀ c : Context,
        ((¬ ∃ x y, c.at? (path parts) = some (.map x) ∧ value raw = .map y) →
            (c.merge d).at? (path parts) = some (value raw)) ∧
          (∀ x y, c.at? (path parts) = some (.map x) → value raw = .map y →
            (c.merge d).at? (path parts) = some ((Value.map x).merge (.map y))) ∧
          ∀ other, Diverges (path parts) other → (c.merge d).at? other = c.at? other := by
  refine ⟨exists_parse_iff Toml.reader text, ?_⟩
  intro parts raw d divided parsed c
  have merged : Value.map (c.merge d).vars =
      (Value.map c.vars).merge ((value raw).nested (path parts)) := by
    rw [value, ← vars_of_parse divided parsed]
    exact (Value.merge_map c.vars d.vars).symm
  have ordered : (value raw).Ordered := Value.ordered_ofToml _
  simp only [Context.at?, merged]
  refine ⟨?_, ?_, ?_⟩
  · intro apart
    rw [Value.at?_merge_nested _ ordered]
    exact Value.mergeAt_of_not_maps apart
  · intro x y old same
    rw [Value.at?_merge_nested _ ordered, old, same]
    rfl
  · intro other apart
    exact Value.at?_merge_nested_of_diverges _ ordered apart

/-- A number gives way to a map for a new key, a map takes up another one, and the name beside them
stays. -/
theorem merge_parse_site :
    let c := Context.ofEntries
      [("site", .map [("meta", .int 5), ("name", .string "N"), ("size", .map [("w", .int 1)])])]
    ∃ d e, parse "site . meta.lang = \"de\" " = .ok d ∧ parse "site.size=\x7bh=2\x7d" = .ok e ∧
      (c.merge d).at? ["site", "meta", "lang"] = some (.string "de") ∧
      (c.merge d).at? ["site", "name"] = some (.string "N") ∧
      (c.merge e).at? ["site", "size"] = some (.map [("h", .int 2), ("w", .int 1)]) := by
  intro c
  have first : Divided "site . meta.lang = \"de\" "
      ["site ".toList, " meta".toList, "lang ".toList] " \"de\" ".toList :=
    ⟨by simp, by decide, by decide⟩
  have second : Divided "site.size=\x7bh=2\x7d" ["site".toList, "size".toList]
      "\x7bh=2\x7d".toList :=
    ⟨by simp, by decide, by decide⟩
  obtain ⟨d, parsed⟩ := (merge_parse _).1.2 ⟨_, _, first, by decide⟩
  obtain ⟨e, parsed'⟩ := (merge_parse _).1.2 ⟨_, _, second, by decide⟩
  obtain ⟨replaced, -, beside⟩ := (merge_parse _).2 _ _ d first parsed c
  obtain ⟨-, together, -⟩ := (merge_parse _).2 _ _ e second parsed' c
  have keys : path ["site ".toList, " meta".toList, "lang ".toList] = ["site", "meta", "lang"] := by
    cbv
  have keys' : path ["site".toList, "size".toList] = ["site", "size"] := by cbv
  have lang : value " \"de\" ".toList = .string "de" := by cbv
  have height : value "\x7bh=2\x7d".toList = .map [("h", .int 2)] := by cbv
  have name : c.at? ["site", "name"] = some (.string "N") := by cbv
  have width : c.at? ["site", "size"] = some (.map [("w", .int 1)]) := by cbv
  rw [keys, lang] at replaced
  rw [keys] at beside
  rw [keys'] at together
  refine ⟨d, e, parsed, parsed', ?_, ?_, ?_⟩
  · apply replaced
    rintro ⟨x, y, -, same⟩
    cases same
  · rw [beside ["site", "name"] ⟨1, by decide, by decide, by decide⟩]
    exact name
  · rw [together _ _ width height]
    cbv

end Assignment

end BraceTemplate
