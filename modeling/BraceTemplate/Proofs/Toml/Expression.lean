/-
# BraceTemplate.Proofs.Toml.Expression — texts that are values

Arrays and braced tables hold values, so how far a value reaches is settled for values, items and
pairs together (`Extents`), one unit of fuel after the other.

* `value?_extent`: a value is read alike with any fuel that is enough, however much follows it;
* `reader_alone`: what is taken for a value is an expression by itself.
-/
import BraceTemplate.Proofs.Toml.Words
import BraceTemplate.Toml.Reader

namespace BraceTemplate.Toml

set_option autoImplicit false

/-! ## What no value begins with -/

theorem scalar?_eq_none {s : List Char} (noRun : s.takeWhile inScalar = []) : scalar? s = none := by
  have plain : ¬ Timed s := by
    rintro ⟨day, digit, rest, date, -⟩
    rw [noRun] at date
    cases date
  rw [scalar?_of_not_timed plain, noRun]
  rfl

theorem scalar?_shorter {s rest : List Char} {v : Toml} (read : scalar? s = some (v, rest)) :
    rest.length < s.length := by
  obtain ⟨front, rfl, reads⟩ := scalar?_extent read
  cases front with
  | nil =>
      have empty := reads [] List.nil_prefix
      rw [List.nil_append, scalar?_eq_none rfl] at empty
      cases empty
  | cons c front =>
      simp only [List.cons_append, List.length_cons, List.length_append]
      omega

/-- No value begins with a character that begins no string, array or table and stands in no
scalar. -/
theorem value?_eq_none {c : Char} (plain : inScalar c = false)
    (closed : (c == '"' || c == '\'') = false ∧ (c == '[') = false ∧ (c == '{') = false)
    (depth fuel : Nat) (s : List Char) : value? depth fuel (c :: s) = none := by
  cases fuel with
  | zero => rfl
  | succ fuel =>
      simp only [value?, closed, Bool.false_eq_true, if_false]
      exact scalar?_eq_none (by simp [plain])

theorem key?_brace (s : List Char) : key? ('}' :: s) = none := rfl

theorem pairs?_brace (depth fuel : Nat) (s : List Char) : pairs? depth fuel ('}' :: s) = none := by
  cases fuel with
  | zero => rfl
  | succ fuel => simp only [pairs?, key?_brace]

/-! ## One step of fuel -/

/-- What may stand in front of a text as a value, and what follows it. -/
inductive Form (depth fuel : Nat) (rest : List Char) : List Char → Toml → Prop
  | string {c : Char} {s : List Char} {text : String} (quote : (c == '"' || c == '\'') = true)
      (word : string? (c :: s) = some (text, rest)) : Form depth fuel rest (c :: s) (.string text)
  | array {s : List Char} {items : List Toml} (few : depth + 1 < nestingLimit)
      (inside : items? (depth + 1) fuel s = some (items, rest)) :
      Form depth fuel rest ('[' :: s) (.array items)
  | empty {s : List Char} (few : depth + 1 < nestingLimit) (closed : skipSpaces s = '}' :: rest) :
      Form depth fuel rest ('{' :: s) (.table [])
  | table {s : List Char} {pairs : List (List String × Toml)} {v : Toml}
      (few : depth + 1 < nestingLimit)
      (inside : pairs? (depth + 1) fuel (skipSpaces s) = some (pairs, rest))
      (made : inlineTable? pairs = some v) : Form depth fuel rest ('{' :: s) v
  | scalar {c : Char} {s : List Char} {v : Toml} (noQuote : ¬ (c == '"' || c == '\'') = true)
      (noBracket : ¬ (c == '[') = true) (noBrace : ¬ (c == '{') = true)
      (word : scalar? (c :: s) = some (v, rest)) : Form depth fuel rest (c :: s) v

theorem Form.of_value? {depth fuel : Nat} {s rest : List Char} {v : Toml}
    (read : value? depth (fuel + 1) s = some (v, rest)) : Form depth fuel rest s v := by
  cases s with
  | nil => cases read
  | cons c s =>
      simp only [value?] at read
      split at read
      · next quote =>
        obtain ⟨text, word, rfl⟩ := map_fst_eq_some.1 read
        exact .string quote word
      · next noQuote =>
        split at read
        · next bracket =>
          obtain rfl : c = '[' := by simpa using bracket
          split at read
          · next few =>
            obtain ⟨items, inside, rfl⟩ := map_fst_eq_some.1 read
            exact .array few inside
          · cases read
        · next noBracket =>
          split at read
          · next brace =>
            obtain rfl : c = '{' := by simpa using brace
            split at read
            · next few =>
              split at read
              · next closed =>
                obtain ⟨rfl, rfl⟩ := Prod.mk.inj (Option.some.inj read)
                exact .empty few closed
              · split at read
                · next inside =>
                  obtain ⟨table, made, same⟩ := Option.map_eq_some_iff.1 read
                  obtain ⟨rfl, rfl⟩ := Prod.mk.inj same
                  exact .table few inside made
                · cases read
            · cases read
          · next noBrace => exact .scalar noQuote noBracket noBrace read

theorem Form.value? {depth fuel : Nat} {s rest : List Char} {v : Toml}
    (form : Form depth fuel rest s v) : value? depth (fuel + 1) s = some (v, rest) := by
  cases form with
  | string quote word => simp only [Toml.value?, quote, if_true, word, Option.map_some]
  | array few inside => simp [Toml.value?, few, inside]
  | empty few closed => simp [Toml.value?, few, closed]
  | @table s pairs v few inside made =>
      -- a table that closes at once has no pairs
      have opened : ∀ after, skipSpaces s ≠ '}' :: after := by
        intro after same
        rw [same, pairs?_brace] at inside
        cases inside
      simp [Toml.value?, few, inside, made]
  | scalar noQuote noBracket noBrace word => simp [Toml.value?, noQuote, noBracket, noBrace, word]

theorem exists_cons_of_prefix {c : Char} {s x : List Char} (left : x <+: c :: s)
    (filled : 0 < x.length) : ∃ t, x = c :: t := by
  cases x with
  | nil => simp at filled
  | cons d t =>
      obtain ⟨rfl, -⟩ := List.cons_prefix_cons.1 left
      exact ⟨t, rfl⟩

/-- An item is the last one in front of the closing bracket, or others follow behind a comma. -/
theorem items?_item {depth fuel : Nat} {s more rest final : List Char} {v : Toml}
    {items : List Toml} (lines : skipLines? false s = some more)
    (item : value? depth fuel more = some (v, rest))
    (behind : (skipLines? false rest = some (']' :: final) ∧ items = []) ∨
      ∃ after, skipLines? false rest = some (',' :: after) ∧
        items? depth fuel after = some (items, final)) :
    items? depth (fuel + 1) s = some (v :: items, final) := by
  simp only [items?, lines]
  split
  · next absent => cases absent
  · next same =>
    obtain rfl := Option.some.inj same
    rw [value?_eq_none (by decide) (by decide)] at item
    cases item
  · next same =>
    obtain rfl := Option.some.inj same
    rcases behind with ⟨closed, rfl⟩ | ⟨after, parted, others⟩
    · simp only [item, closed]
    · simp only [item, parted, others, Option.map_some]

/-- Values, items and pairs of some fuel are read alike with any fuel that is enough. -/
structure Extents (fuel : Nat) : Prop where
  value {depth : Nat} {s rest : List Char} {v : Toml}
    (read : value? depth fuel s = some (v, rest)) : Extent (Taken (value? depth) v) s rest
  items {depth : Nat} {s rest : List Char} {items : List Toml}
    (read : items? depth fuel s = some (items, rest)) : Extent (Taken (items? depth) items) s rest
  pairs {depth : Nat} {s rest : List Char} {pairs : List (List String × Toml)}
    (read : pairs? depth fuel s = some (pairs, rest)) : Extent (Taken (pairs? depth) pairs) s rest

theorem Extents.value_succ {fuel : Nat} (inner : Extents fuel) {depth : Nat} {s rest : List Char}
    {v : Toml} (read : value? depth (fuel + 1) s = some (v, rest)) :
    Extent (Taken (value? depth) v) s rest := by
  cases Form.of_value? read with
  | string quote word =>
      apply (string?_extent word).1.mono
      intro x y left _ found
      have shorter := (string?_extent found).2
      apply taken_of_step (by omega)
      intro fuel _
      obtain ⟨t, rfl⟩ := exists_cons_of_prefix left (by omega)
      exact Form.value? (.string quote found)
  | @array s items few inside =>
      apply (inner.items inside).behind ['['] (by simp)
      intro fuel other after _ found
      exact Form.value? (.array few found)
  | @empty s few closed =>
      have spaces := skipSpaces_extent s
      rw [closed] at spaces
      apply ((Extent.char '{' s).andThen (spaces.andThen (Extent.char '}' _))).mono
      rintro x y - - ⟨z, rfl, ⟨_, closed', rfl, -⟩, -, shorter⟩
      apply taken_of_step (by simp only [List.length_cons]; omega)
      intro fuel _
      exact Form.value? (.empty few closed')
  | @table s pairs v few inside made =>
      apply ((Extent.char '{' s).andThen
        ((skipSpaces_extent s).andThen (inner.pairs inside))).mono
      rintro x y - - ⟨z, rfl, ⟨_, rfl, taken, shorter, shorter'⟩, -⟩
      apply taken_of_step (by simp only [List.length_cons]; omega)
      intro fuel enough
      simp only [List.length_cons] at enough
      exact Form.value? (.table few (taken fuel (by omega)) made)
  | scalar noQuote noBracket noBrace word =>
      apply (scalar?_extent word).mono
      intro x y left _ found
      have shorter := scalar?_shorter found
      apply taken_of_step shorter
      intro fuel _
      obtain ⟨t, rfl⟩ := exists_cons_of_prefix left (by omega)
      exact Form.value? (.scalar noQuote noBracket noBrace found)

theorem Extents.items_succ {fuel : Nat} (inner : Extents fuel) {depth : Nat} {s rest : List Char}
    {items : List Toml} (read : items? depth (fuel + 1) s = some (items, rest)) :
    Extent (Taken (items? depth) items) s rest := by
  simp only [items?] at read
  split at read
  · cases read
  · next after lines =>
    obtain ⟨rfl, rfl⟩ := Prod.mk.inj (Option.some.inj read)
    apply ((skipLines?_extent lines).andThen (Extent.char ']' _)).mono
    rintro x y - - ⟨_, lines', rfl, shorter, -⟩
    apply taken_of_step shorter
    intro fuel _
    simp only [items?, lines']
  · next more noClose lines =>
    split at read
    · cases read
    · next v after item =>
      have begins := (skipLines?_extent lines).andThen (inner.value item)
      split at read
      · next last lines' =>
        obtain ⟨rfl, rfl⟩ := Prod.mk.inj (Option.some.inj read)
        apply (begins.andThen ((skipLines?_extent lines').andThen (Extent.char ']' _))).mono
        rintro x y - - ⟨z, ⟨_, lines, taken, _, _⟩, ⟨_, lines', rfl, _, _⟩, _, _⟩
        -- the closing bracket leaves a unit of fuel for the step
        simp only [List.length_cons] at *
        apply taken_of_step (by omega)
        intro fuel enough
        exact items?_item lines (taken fuel (by omega)) (.inl ⟨lines', rfl⟩)
      · next others lines' =>
        obtain ⟨others, inside, rfl⟩ := map_fst_eq_some.1 read
        apply (begins.andThen ((skipLines?_extent lines').andThen
          ((Extent.char ',' _).andThen (inner.items inside)))).mono
        rintro x y - - ⟨z, ⟨_, lines, taken, _, _⟩,
          ⟨_, lines', ⟨_, rfl, taken', _, _⟩, _, _⟩, _, _⟩
        simp only [List.length_cons] at *
        apply taken_of_step (by omega)
        intro fuel enough
        exact items?_item lines (taken fuel (by omega)) (.inr ⟨_, lines', taken' fuel (by omega)⟩)
      · cases read

theorem Extents.pairs_succ {fuel : Nat} (inner : Extents fuel) {depth : Nat} {s rest : List Char}
    {pairs : List (List String × Toml)} (read : pairs? depth (fuel + 1) s = some (pairs, rest)) :
    Extent (Taken (pairs? depth) pairs) s rest := by
  simp only [pairs?] at read
  split at read
  · next key after found =>
    split at read
    · cases read
    · next v behind item =>
      have begins := (key?_extent found).andThen ((Extent.char '=' after).andThen
        ((skipSpaces_extent after).andThen (inner.value item)))
      have spaces := skipSpaces_extent behind
      split at read
      · next last closed =>
        obtain ⟨rfl, rfl⟩ := Prod.mk.inj (Option.some.inj read)
        rw [closed] at spaces
        apply (begins.andThen (spaces.andThen (Extent.char '}' _))).mono
        rintro x y - - ⟨z, ⟨_, found, ⟨_, rfl, ⟨_, rfl, taken, _, _⟩, _, _⟩, _, _⟩,
          ⟨_, closed', rfl, _, _⟩, _, _⟩
        simp only [List.length_cons] at *
        apply taken_of_step (by omega)
        intro fuel enough
        simp only [pairs?, found, taken fuel (by omega), closed']
      · next others parted =>
        obtain ⟨others, inside, rfl⟩ := map_fst_eq_some.1 read
        rw [parted] at spaces
        apply (begins.andThen (spaces.andThen
          ((Extent.char ',' _).andThen (inner.pairs inside)))).mono
        rintro x y - - ⟨z, ⟨_, found, ⟨_, rfl, ⟨_, rfl, taken, _, _⟩, _, _⟩, _, _⟩,
          ⟨_, parted', ⟨_, rfl, taken', _, _⟩, _, _⟩, _, _⟩
        simp only [List.length_cons] at *
        apply taken_of_step (by omega)
        intro fuel enough
        simp only [pairs?, found, taken fuel (by omega), parted', taken' fuel (by omega),
          Option.map_some]
      · cases read
  · cases read

theorem extents (fuel : Nat) : Extents fuel := by
  induction fuel with
  | zero => constructor <;> (intros; contradiction)
  | succ fuel ih => exact ⟨ih.value_succ, ih.items_succ, ih.pairs_succ⟩

/-- A value is read alike with any fuel that is enough, however much is left behind it. -/
theorem value?_extent {depth fuel : Nat} {s rest : List Char} {v : Toml}
    (read : value? depth fuel s = some (v, rest)) : Extent (Taken (value? depth) v) s rest :=
  (extents fuel).value read

/-- One unit of fuel for each character of the text is enough. -/
theorem value?_enough {depth fuel : Nat} {s rest : List Char} {v : Toml}
    (read : value? depth fuel s = some (v, rest)) {fuel' : Nat} (enough : s.length ≤ fuel') :
    value? depth fuel' s = some (v, rest) := by
  obtain ⟨front, rfl, reads⟩ := value?_extent read
  apply reads rest (List.prefix_refl rest)
  omega

/-! ## The reader -/

theorem reader_value?_eq_some_iff {s rest : List Char} {v : Toml} :
    reader.value? s = some (v, rest) ↔
      ∃ fuel w, value? 0 fuel s = some (w, rest) ∧ untag? w = some v := by
  simp only [reader, Option.bind_eq_some_iff, Option.map_eq_some_iff, Prod.exists, Prod.mk.injEq]
  constructor
  · rintro ⟨w, _, read, _, untagged, rfl, rfl⟩
    exact ⟨s.length, w, read, untagged⟩
  · rintro ⟨fuel, w, read, untagged⟩
    exact ⟨w, rest, value?_enough read (Nat.le_refl _), v, untagged, rfl, rfl⟩

/-- What a text begins with is read alike by itself. -/
theorem reader_alone {s rest : List Char} {v : Toml} (read : reader.value? s = some (v, rest)) :
    ∃ front, s = front ++ rest ∧ reader.Expression front v := by
  obtain ⟨fuel, w, read, untagged⟩ := reader_value?_eq_some_iff.1 read
  obtain ⟨front, rfl, reads⟩ := value?_extent read
  have alone := reads [] List.nil_prefix front.length (by simp)
  rw [List.append_nil] at alone
  exact ⟨front, rfl, reader_value?_eq_some_iff.2 ⟨_, w, alone, untagged⟩⟩

end BraceTemplate.Toml
