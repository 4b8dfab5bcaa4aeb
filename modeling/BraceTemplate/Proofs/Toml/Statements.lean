/-
# BraceTemplate.Proofs.Toml.Statements — a key keeps the value that it is set to

No statement of a document reaches into a value or puts another item in its place, so a key of the
document that a statement sets stands for that value at the end, whatever follows
(`bound_of_statements?`). The document that sets a key to a text therefore has, under this key, the
value that the text begins with, and the line of that value ends in the text (`reader_line`).

* `reader_laws`: the reader does all that is relied on in a reader of TOML.
-/
import BraceTemplate.Proofs.Text.Padding
import BraceTemplate.Proofs.Toml.Spelling

namespace BraceTemplate.Toml

set_option autoImplicit false

/-! ## Tables under construction -/

namespace Entries

/-- A key stands for a value. -/
def Bound (entries : Entries) (key : String) (v : Toml) : Prop :=
  Dict.find? entries key = some (.value v)

theorem find?_put (entries : Entries) (key : String) (item : Item) (other : String) :
    Dict.find? (entries.put key item) other =
      if key = other then some item else Dict.find? entries other := by
  induction entries with
  | nil => simp [put, Dict.find?]
  | cons entry rest ih =>
      obtain ⟨k, i⟩ := entry
      by_cases same : k = key
      · subst same
        by_cases asked : k = other <;> simp [put, Dict.find?, asked]
      · by_cases asked : k = other
        · subst asked
          simp [put, same, Dict.find?, Ne.symm same]
        · simp [put, same, Dict.find?, asked, ih]

variable {entries changed : Entries} {key : String} {v : Toml}

theorem Bound.put (bound : entries.Bound key v) {other : String} (apart : other ≠ key)
    (item : Item) : (entries.put other item).Bound key v := by
  rw [Bound, find?_put, if_neg apart]
  exact bound

/-- A change keeps the value of a key at the end of a path, if it does so in the table there. -/
theorem Bound.update (bound : entries.Bound key v) {dotted : Bool} {origin : Origin}
    {path : List String} {change : Origin → Entries → Option Entries}
    (keeps : ∀ origin entries changed, Bound entries key v → change origin entries = some changed →
      changed.Bound key v)
    (done : update dotted origin entries path change = some changed) : changed.Bound key v := by
  cases path with
  | nil =>
      rw [Entries.update] at done
      exact keeps _ _ _ bound done
  | cons first path =>
      by_cases same : first = key
      · -- no path leads through a value
        have found : Dict.find? entries key = some (.value v) := bound
        simp only [Entries.update, same, found] at done
        cases done
      · simp only [Entries.update] at done
        split at done
        · obtain ⟨inner, -, rfl⟩ := Option.map_eq_some_iff.1 done
          exact bound.put same _
        · cases done
        · cases done
        · obtain ⟨inner, -, rfl⟩ := Option.map_eq_some_iff.1 done
          exact bound.put same _
        · split at done
          · cases done
          · obtain ⟨inner, -, rfl⟩ := Option.map_eq_some_iff.1 done
            exact bound.put same _

theorem Bound.set (bound : entries.Bound key v) {path : List String} {last : String} {w : Toml}
    {origin : Origin} (done : set path last w origin entries = some changed) :
    changed.Bound key v := by
  apply bound.update _ done
  intro origin entries changed bound done
  split at done
  · cases done
  · split at done
    · cases done
    · next absent =>
      obtain rfl := Option.some.inj done
      apply bound.put
      rintro rfl
      simp [Dict.contains, show Dict.find? entries last = some (.value v) from bound] at absent

theorem Bound.define (bound : entries.Bound key v) {other : String}
    (done : define other entries = some changed) : changed.Bound key v := by
  have apart : other ≠ key := by
    rintro rfl
    simp [Entries.define, show Dict.find? entries other = some (.value v) from bound] at done
  unfold Entries.define at done
  split at done
  · obtain rfl := Option.some.inj done
    exact bound.put apart _
  · obtain rfl := Option.some.inj done
    have erased : Bound (Dict.erase entries other) key v := by
      rw [Bound, Dict.find?_erase, if_neg apart]
      exact bound
    exact erased.put apart _
  · cases done

theorem Bound.append (bound : entries.Bound key v) {other : String}
    (done : append other entries = some changed) : changed.Bound key v := by
  have apart : other ≠ key := by
    rintro rfl
    simp [Entries.append, show Dict.find? entries other = some (.value v) from bound] at done
  unfold Entries.append at done
  split at done
  · obtain rfl := Option.some.inj done
    exact bound.put apart _
  · obtain rfl := Option.some.inj done
    exact bound.put apart _
  · cases done

end Entries

/-! ## Statements -/

namespace Document

variable {d changed : Document} {key : String} {v : Toml}

theorem bound_of_set? (bound : d.root.Bound key v) {path : List String} {w : Toml}
    (done : d.set? path w = some changed) : changed.root.Bound key v := by
  unfold set? at done
  split at done
  · cases done
  · obtain ⟨root, inside, rfl⟩ := Option.map_eq_some_iff.1 done
    exact bound.update (fun _ _ _ bound done => bound.set done) inside

theorem bound_of_open? (bound : d.root.Bound key v) {header : List String}
    (done : d.open? header = some changed) : changed.root.Bound key v := by
  unfold open? at done
  split at done
  · cases done
  · obtain ⟨root, inside, rfl⟩ := Option.map_eq_some_iff.1 done
    exact bound.update (fun _ _ _ bound done => bound.define done) inside

theorem bound_of_append? (bound : d.root.Bound key v) {header : List String}
    (done : d.append? header = some changed) : changed.root.Bound key v := by
  unfold append? at done
  split at done
  · cases done
  · obtain ⟨root, inside, rfl⟩ := Option.map_eq_some_iff.1 done
    exact bound.update (fun _ _ _ bound done => bound.append done) inside

end Document

/-- What follows in a document leaves a key the value that it is set to. -/
theorem bound_of_statements? {fuel : Nat} {d changed : Document} {s : List Char} {key : String}
    {v : Toml} (bound : d.root.Bound key v) (read : statements? fuel d s = some changed) :
    changed.root.Bound key v := by
  induction fuel generalizing d s with
  | zero => cases read
  | succ fuel ih =>
      simp only [statements?] at read
      split at read
      · obtain rfl := Option.some.inj read
        exact bound
      · split at read
        · exact ih bound read
        · cases read
      · split at read
        · obtain ⟨d', done, read⟩ := Option.bind_eq_some_iff.1 read
          exact ih (Document.bound_of_append? bound done) read
        · cases read
      · split at read
        · obtain ⟨d', done, read⟩ := Option.bind_eq_some_iff.1 read
          exact ih (Document.bound_of_open? bound done) read
        · cases read
      · split at read
        · split at read
          · exact ih bound read
          · cases read
        · split at read
          · obtain ⟨d', done, read⟩ := Option.bind_eq_some_iff.1 read
            exact ih (Document.bound_of_set? bound done) read
          · cases read

theorem find?_entriesToToml (entries : Entries) (key : String) :
    Dict.find? (entriesToToml entries) key = (Dict.find? entries key).map Item.toToml := by
  induction entries with
  | nil => rfl
  | cons entry rest ih =>
      obtain ⟨k, item⟩ := entry
      by_cases same : k = key <;> simp [entriesToToml, Dict.find?, same, ih]

theorem find?_untagEntries? {entries untagged : List (String × Toml)} {key : String} {v : Toml}
    (found : Dict.find? entries key = some v) (done : untagEntries? entries = some untagged) :
    ∃ u, untag? v = some u ∧ Dict.find? untagged key = some u := by
  induction entries generalizing untagged with
  | nil => cases found
  | cons entry rest ih =>
      obtain ⟨k, w⟩ := entry
      simp only [untagEntries?] at done
      split at done
      · next u first =>
        obtain ⟨others, inner, rfl⟩ := Option.map_eq_some_iff.1 done
        by_cases same : k = key
        · simp only [Dict.find?, same, if_true, Option.some.injEq] at found ⊢
          exact ⟨u, found ▸ first, rfl⟩
        · simp only [Dict.find?, same, if_false] at found ⊢
          exact ih found inner
      · cases done

/-! ## The document that sets one key -/

theorem ne_of_inBareKey {c d : Char} (inKey : inBareKey c = true) (other : inBareKey d = false) :
    c ≠ d := by
  rintro rfl
  rw [inKey] at other
  cases other

theorem skipSpaces_flush {s : List Char} (flush : ∀ c ∈ s.head?, isSpace c = false) :
    skipSpaces s = s :=
  Text.dropWhile_eq_self flush

theorem flush_of_inBareKey {c : Char} (inKey : inBareKey c = true) (s : List Char) :
    skipSpaces (c :: s) = c :: s := by
  apply skipSpaces_flush
  rintro _ ⟨⟩
  simp only [isSpace, Bool.or_eq_false_iff, beq_eq_false_iff_ne]
  exact ⟨ne_of_inBareKey inKey (by decide), ne_of_inBareKey inKey (by decide)⟩

/-- A line that begins as a bare key does sets a key. -/
theorem statements?_line {c : Char} (inKey : inBareKey c = true) (fuel : Nat) (d : Document)
    (s : List Char) :
    statements? (fuel + 1) d (c :: s) =
      (assignment? (c :: s)).bind fun (key, w, rest) =>
        (d.set? key w).bind fun d => statements? fuel d rest := by
  have inLine : (c == '\n' || c == '\r') = false := by
    rw [Bool.or_eq_false_iff, beq_eq_false_iff_ne, beq_eq_false_iff_ne]
    exact ⟨ne_of_inBareKey inKey (by decide), ne_of_inBareKey inKey (by decide)⟩
  rw [statements?, flush_of_inBareKey inKey]
  split
  · next same => cases same
  · next same =>
    obtain ⟨rfl, -⟩ := List.cons.inj same
    cases inKey
  · next same =>
    obtain ⟨rfl, -⟩ := List.cons.inj same
    cases inKey
  · next same =>
    obtain ⟨rfl, -⟩ := List.cons.inj same
    cases inKey
  · next same =>
    obtain ⟨rfl, rfl⟩ := List.cons.inj same
    rw [if_neg (by rw [inLine]; decide)]
    cases assignment? (c :: s) <;> rfl

section

variable {key : String} (bare : IsBareKey key)
include bare

theorem IsBareKey.exists_cons :
    ∃ c cs, key.toList = c :: cs ∧ inBareKey c = true ∧ ∀ c ∈ cs, inBareKey c = true := by
  obtain ⟨nonempty, plain⟩ := bare
  cases chars : key.toList with
  | nil => exact absurd chars nonempty
  | cons c cs =>
      rw [chars, List.forall_mem_cons] at plain
      exact ⟨c, cs, rfl, plain⟩

theorem IsBareKey.key? (s : List Char) :
    key? (key.toList ++ ' ' :: '=' :: s) = some ([key], '=' :: s) := by
  obtain ⟨c, cs, chars, first, others⟩ := bare.exists_cons
  have noQuote : (c == '"' || c == '\'') = false := by
    rw [Bool.or_eq_false_iff, beq_eq_false_iff_ne, beq_eq_false_iff_ne]
    exact ⟨ne_of_inBareKey first (by decide), ne_of_inBareKey first (by decide)⟩
  have inKey : (cs ++ ' ' :: '=' :: s).takeWhile inBareKey = cs := by
    rw [List.takeWhile_append_of_pos others]
    simp [inBareKey]
  have behind : (cs ++ ' ' :: '=' :: s).dropWhile inBareKey = ' ' :: '=' :: s := by
    rw [List.dropWhile_append_of_pos others]
    rfl
  have part : keyPart? (c :: (cs ++ ' ' :: '=' :: s)) = some (key, ' ' :: '=' :: s) := by
    rw [keyPart?, noQuote, if_neg Bool.false_ne_true, if_pos first, inKey, behind, ← chars,
      String.ofList_toList]
  have spaces : skipSpaces (' ' :: '=' :: s) = '=' :: s := rfl
  rw [chars, List.cons_append, Toml.key?, nestingLimit, keyParts?, flush_of_inBareKey first, part]
  simp only [spaces]
  rfl

/-- The value is read behind the equals sign, and what follows its line is read as statements. -/
theorem document?_setting {raw : List Char} (flush : skipSpaces raw = raw) :
    document? (setting key raw) =
      (value? 0 (raw.length + 2) raw).bind fun (w, rest) =>
        (endLine? rest).bind fun lines =>
          (statements? (key.toList.length + raw.length + 3) ⟨[(key, .value w)], []⟩ lines).map
            fun d => entriesToToml d.root := by
  obtain ⟨c, cs, chars, first, -⟩ := bare.exists_cons
  have noMark : c ≠ '\ufeff' := ne_of_inBareKey first (by decide)
  have text : skipMark (setting key raw).toList = c :: (cs ++ ' ' :: '=' :: ' ' :: raw) := by
    simp [setting, skipMark, chars, noMark]
  have name : key? (c :: (cs ++ ' ' :: '=' :: ' ' :: raw)) = some ([key], '=' :: ' ' :: raw) := by
    rw [← List.cons_append, ← chars, bare.key?]
  have spaces : skipSpaces (' ' :: raw) = raw := flush
  have line : assignment? (c :: (cs ++ ' ' :: '=' :: ' ' :: raw)) =
      (value? 0 (raw.length + 2) raw).bind fun (w, rest) =>
        (endLine? rest).map ([key], w, ·) := by
    simp only [assignment?, name, spaces, List.length_cons]
    cases value? 0 (raw.length + 2) raw <;> rfl
  have fuel : (c :: (cs ++ ' ' :: '=' :: ' ' :: raw)).length =
      key.toList.length + raw.length + 3 := by
    simp only [chars, List.length_cons, List.length_append]
    omega
  have set (w : Toml) : Document.empty.set? [key] w = some ⟨[(key, .value w)], []⟩ := rfl
  simp only [document?, text, fuel, statements?_line first, line]
  cases value? 0 (raw.length + 2) raw with
  | none => rfl
  | some read =>
      obtain ⟨w, rest⟩ := read
      cases ended : endLine? rest <;> simp [ended, set]

end

theorem flush_of_reader {s rest : List Char} {v : Toml} (read : reader.value? s = some (v, rest)) :
    skipSpaces s = s := by
  obtain ⟨fuel, w, found, -⟩ := reader_value?_eq_some_iff.1 read
  apply skipSpaces_flush
  intro c first
  cases s with
  | nil => cases first
  | cons d s =>
      obtain rfl := Option.some.inj first
      rw [Bool.eq_false_iff]
      intro space
      simp only [isSpace, Bool.or_eq_true, beq_iff_eq] at space
      -- no value begins with a space or a tab
      have none : ∀ fuel, value? 0 fuel (d :: s) = none := by
        intro fuel
        rcases space with rfl | rfl <;> exact value?_eq_none (by decide) (by decide) 0 fuel s
      rw [none] at found
      cases found

/-- A key and an expression are a document. -/
theorem reader_pair {key : String} {s : List Char} {v : Toml} (bare : IsBareKey key)
    (whole : reader.Expression s v) : reader.document? (setting key s) = some [(key, v)] := by
  obtain ⟨fuel, w, read, untagged⟩ := reader_value?_eq_some_iff.1 whole
  have document : document? (setting key s) = some [(key, w)] := by
    rw [document?_setting bare (flush_of_reader whole), value?_enough read (by omega)]
    rfl
  change parse? (setting key s) = some [(key, v)]
  rw [parse?, document, Option.bind_some]
  simp only [untagEntries?, untagged, Option.map_some]

/-- Where the line of a value ends, only spaces follow the value or something beyond it does. -/
theorem beyond_of_endLine? {rest lines : List Char} (ended : endLine? rest = some lines) :
    skipSpaces rest = [] ∨ Beyond rest := by
  cases begins : skipSpaces rest with
  | nil => exact .inl rfl
  | cons c more =>
      right
      by_cases comment : c = '#'
      · exact ⟨more, .inl (by rw [begins, comment])⟩
      · have noComment : skipComment (c :: more) = c :: more := by
          rw [skipComment]
          rintro rest ⟨rfl⟩
          exact comment rfl
        simp only [endLine?, begins, noComment, newline?] at ended
        split at ended
        · next more same => exact ⟨more, .inr (.inl (begins.trans same))⟩
        · next more same => exact ⟨more, .inr (.inr (begins.trans same))⟩
        · cases ended

/-- If a document sets a key to a text, that key stands for the value that the text begins with, and
the line of the value ends behind it. -/
theorem reader_line {key : String} {s : List Char} {entries : List (String × Toml)}
    (bare : IsBareKey key) (flush : ∀ c ∈ s.head?, isSpace c = false)
    (parsed : reader.document? (setting key s) = some entries) :
    ∃ v rest, reader.value? s = some (v, rest) ∧ (skipSpaces rest = [] ∨ Beyond rest) ∧
      Dict.find? entries key = some v := by
  obtain ⟨tagged, whole, untagged⟩ := Option.bind_eq_some_iff.1 parsed
  rw [document?_setting bare (skipSpaces_flush flush)] at whole
  obtain ⟨⟨w, rest⟩, read, whole⟩ := Option.bind_eq_some_iff.1 whole
  obtain ⟨lines, ended, whole⟩ := Option.bind_eq_some_iff.1 whole
  obtain ⟨d, others, rfl⟩ := Option.map_eq_some_iff.1 whole
  have first : Entries.Bound [(key, .value w)] key w := by simp [Entries.Bound, Dict.find?]
  have bound : d.root.Bound key w := bound_of_statements? first others
  have found : Dict.find? (entriesToToml d.root) key = some w := by
    rw [find?_entriesToToml, show Dict.find? d.root key = some (.value w) from bound]
    rfl
  obtain ⟨v, dated, found⟩ := find?_untagEntries? found untagged
  exact ⟨v, rest, reader_value?_eq_some_iff.2 ⟨_, w, read, dated⟩, beyond_of_endLine? ended, found⟩

/-- The reader does what TOML says of documents and their values. -/
theorem reader_laws : reader.Laws where
  alone := reader_alone
  pair := reader_pair
  line := reader_line
  string := reader_string
  dateTime read := by
    have spelled := reader_dateTime read
    exact ⟨Text.not_mem_of_class spelled (by decide), Text.not_mem_of_class spelled (by decide)⟩

end BraceTemplate.Toml
