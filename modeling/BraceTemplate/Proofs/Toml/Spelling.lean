/-
# BraceTemplate.Proofs.Toml.Spelling — the texts of strings and dates

A string is shorter than what it is read from (`reader_string`), and the text of a date has only
characters that may stand in a scalar (`reader_dateTime`).
-/
import BraceTemplate.Proofs.Toml.Expression

namespace BraceTemplate.Toml

set_option autoImplicit false

open Text

/-! ## The characters of dates and times -/

/-- A text has only characters that may stand in a scalar. -/
def Spelled (s : List Char) : Prop :=
  ∀ c ∈ s, inScalar c = true

theorem spelled_nil : Spelled [] := by
  simp [Spelled]

theorem spelled_cons {c : Char} {s : List Char} :
    Spelled (c :: s) ↔ inScalar c = true ∧ Spelled s :=
  List.forall_mem_cons

theorem spelled_append {s t : List Char} : Spelled (s ++ t) ↔ Spelled s ∧ Spelled t :=
  List.forall_mem_append

theorem spelled_of_isDigits {s : List Char} (digits : isDigits s = true) : Spelled s := by
  intro c mem
  exact inScalar_of_isDigit (List.all_eq_true.1 digits c mem)

theorem twoDigits?_spelled {low high : Nat} {a b : Char} {digits : List Char}
    (read : twoDigits? low high a b = some digits) : Spelled digits := by
  simp only [twoDigits?] at read
  split at read
  · next both =>
    split at read
    · obtain rfl := Option.some.inj read
      apply spelled_of_isDigits
      simpa [isDigits] using both
    · cases read
  · cases read

theorem date?_spelled {s day rest : List Char} (read : date? s = some (day, rest)) :
    Spelled day := by
  unfold date? at read
  split at read
  · simp only at read
    split at read
    · next year =>
      split at read
      · cases read
      · next month found =>
        split at read
        · cases read
        · next days found' =>
          obtain ⟨rfl, -⟩ := Prod.mk.inj (Option.some.inj read)
          refine spelled_append.2 ⟨spelled_of_isDigits year, ?_⟩
          simp only [spelled_append, spelled_cons]
          exact ⟨by decide, twoDigits?_spelled found, by decide, twoDigits?_spelled found'⟩
    · cases read
  · cases read

theorem fraction?_spelled {s digits rest : List Char} (read : fraction? s = some (digits, rest)) :
    Spelled digits := by
  unfold fraction? at read
  split at read
  · next more =>
    simp only at read
    split at read
    · cases read
    · obtain ⟨rfl, -⟩ := Prod.mk.inj (Option.some.inj read)
      simp only [fractionChars]
      split
      · exact spelled_nil
      · refine spelled_cons.2 ⟨by decide, ?_⟩
        intro c mem
        have kept := (List.dropWhile_sublist _).subset (List.mem_reverse.1 mem)
        have taken := List.mem_of_mem_take (List.mem_reverse.1 kept)
        exact inScalar_of_isDigit (List.all_eq_true.1 List.all_takeWhile c taken)
  · obtain ⟨rfl, -⟩ := Prod.mk.inj (Option.some.inj read)
    exact spelled_nil

theorem time?_spelled {s time rest : List Char} (read : time? s = some (time, rest)) :
    Spelled time := by
  unfold time? at read
  split at read
  · split at read
    · next hour minute second fraction after hours minutes seconds fractions =>
      obtain ⟨rfl, -⟩ := Prod.mk.inj (Option.some.inj read)
      simp only [spelled_append, spelled_cons]
      exact ⟨twoDigits?_spelled hours, by decide, twoDigits?_spelled minutes, by decide,
        twoDigits?_spelled seconds, fraction?_spelled fractions⟩
    · cases read
  · cases read

theorem offset?_spelled {s offset : List Char} (read : offset? s = some offset) :
    Spelled offset := by
  unfold offset? at read
  split at read
  · obtain rfl := Option.some.inj read
    exact spelled_nil
  · obtain rfl := Option.some.inj read
    simp [Spelled, inScalar]
  · obtain rfl := Option.some.inj read
    simp [Spelled, inScalar]
  · next sign _ _ _ _ =>
    split at read
    · next signed =>
      split at read
      · next hour minute hours minutes =>
        obtain rfl := Option.some.inj read
        simp only [spelled_append, spelled_cons]
        refine ⟨?_, twoDigits?_spelled hours, by decide, twoDigits?_spelled minutes⟩
        simp only [Bool.or_eq_true, beq_iff_eq] at signed
        split
        · decide
        · rcases signed with rfl | rfl <;> decide
      · cases read
    · cases read
  · cases read

/-! ## Values that are no strings -/

/-- A value is neither string nor array nor table, and a date has only characters that may stand in
a scalar. -/
def Scalar : Toml → Prop
  | .integer _ | .float _ | .boolean _ => True
  | .dateTime text => Spelled text.toList
  | .string _ | .array _ | .table _ => False

theorem dateTime?_scalar {s : List Char} {v : Toml} (read : dateTime? s = some v) : v.Scalar := by
  unfold dateTime? at read
  split at read
  · next date found =>
    obtain rfl := Option.some.inj read
    simpa [Scalar] using date?_spelled found
  · next date delimiter rest found =>
    split at read
    · split at read
      · cases read
      · next time after found' =>
        obtain ⟨offset, found'', rfl⟩ := Option.map_eq_some_iff.1 read
        simp only [Scalar, String.toList_ofList, spelled_append, spelled_cons]
        exact ⟨date?_spelled found, by decide, time?_spelled found', offset?_spelled found''⟩
    · cases read
  · split at read
    · next time found =>
      obtain rfl := Option.some.inj read
      simpa [Scalar] using time?_spelled found
    · cases read

theorem int64?_scalar {n : Int} {v : Toml} (read : int64? n = some v) : v.Scalar := by
  unfold int64? at read
  split at read
  · obtain rfl := Option.some.inj read
    trivial
  · cases read

theorem based?_scalar {base : Nat} {s : List Char} {v : Toml} (read : based? base s = some v) :
    v.Scalar := by
  unfold based? at read
  split at read
  · exact int64?_scalar read
  · cases read

theorem integer?_scalar {s : List Char} {v : Toml} (read : integer? s = some v) : v.Scalar := by
  unfold integer? at read
  split at read
  · exact based?_scalar read
  · exact based?_scalar read
  · exact based?_scalar read
  · simp only at read
    split at read
    · exact int64?_scalar read
    · cases read

theorem signedFloat?_scalar {negative : Bool} {x : Float} {v : Toml}
    (read : signedFloat? negative x = some v) : v.Scalar := by
  unfold signedFloat? at read
  split at read
  · obtain rfl := Option.some.inj read
    trivial
  · split at read
    · cases read
    · obtain rfl := Option.some.inj read
      trivial

theorem decimalFloat?_scalar {s : List Char} {v : Toml} (read : decimalFloat? s = some v) :
    v.Scalar := by
  simp only [decimalFloat?] at read
  split at read
  · split at read
    · exact signedFloat?_scalar read
    · cases read
  · split at read
    · exact signedFloat?_scalar read
    · cases read

theorem specialFloat?_scalar {s : List Char} {v : Toml} (read : specialFloat? s = some v) :
    v.Scalar := by
  simp only [specialFloat?] at read
  split at read
  · obtain rfl := Option.some.inj read
    trivial
  · split at read
    · obtain rfl := Option.some.inj read
      trivial
    · cases read

theorem boolean?_scalar {s : List Char} {v : Toml} (read : boolean? s = some v) : v.Scalar := by
  simp only [boolean?] at read
  split at read
  · obtain rfl := Option.some.inj read
    trivial
  · split at read
    · obtain rfl := Option.some.inj read
      trivial
    · cases read

theorem number?_scalar {s : List Char} {v : Toml} (read : number? s = some v) : v.Scalar := by
  simp only [number?, Option.or_eq_some_iff] at read
  rcases read with read | ⟨-, read | ⟨-, read | ⟨-, read⟩⟩⟩
  · exact integer?_scalar read
  · exact decimalFloat?_scalar read
  · exact specialFloat?_scalar read
  · exact boolean?_scalar read

theorem scalar?_scalar {s rest : List Char} {v : Toml} (read : scalar? s = some (v, rest)) :
    v.Scalar := by
  by_cases timed : Timed s
  · obtain ⟨day, digit, more, date, after, isDigit⟩ := timed
    rw [scalar?_of_timed date after isDigit, Option.map_eq_some_iff] at read
    obtain ⟨v, made, same⟩ := read
    obtain ⟨rfl, -⟩ := Prod.mk.inj same
    exact dateTime?_scalar made
  · rw [scalar?_of_not_timed timed, Option.map_eq_some_iff] at read
    obtain ⟨v, made, same⟩ := read
    obtain ⟨rfl, -⟩ := Prod.mk.inj same
    rcases Option.or_eq_some_iff.1 made with made | ⟨-, made⟩
    · exact dateTime?_scalar made
    · exact number?_scalar made

/-! ## Texts and their values -/

theorem inlineTable?_eq_some {pairs : List (List String × Toml)} {v : Toml}
    (made : inlineTable? pairs = some v) : ∃ entries, v = .table entries := by
  obtain ⟨entries, -, rfl⟩ := Option.map_eq_some_iff.1 made
  exact ⟨_, rfl⟩

/-- A value read of a text is a string that is shorter than what it is read from, an array or a
table, or a scalar. -/
theorem kind_of_value? {depth fuel : Nat} {s rest : List Char} {v : Toml}
    (read : value? depth fuel s = some (v, rest)) :
    (∃ text, v = .string text ∧ text.length + rest.length < s.length) ∨
      (∃ items, v = .array items) ∨ (∃ entries, v = .table entries) ∨ v.Scalar := by
  cases fuel with
  | zero => cases read
  | succ fuel =>
      cases Form.of_value? read with
      | string quote word => exact .inl ⟨_, rfl, (string?_extent word).2⟩
      | array few inside => exact .inr (.inl ⟨_, rfl⟩)
      | empty few closed => exact .inr (.inr (.inl ⟨_, rfl⟩))
      | table few inside made => exact .inr (.inr (.inl (inlineTable?_eq_some made)))
      | scalar noQuote noBracket noBrace word => exact .inr (.inr (.inr (scalar?_scalar word)))

/-- What a value becomes with dates in place of tagged tables is the value itself, an array or a
table, or a date. -/
theorem kind_of_untag? {w v : Toml} (untagged : untag? w = some v) :
    w = v ∨ (∃ items, v = .array items) ∨ (∃ entries, v = .table entries) ∨ v.Scalar := by
  cases w with
  | array items =>
      obtain ⟨items, -, rfl⟩ := Option.map_eq_some_iff.1 untagged
      exact .inr (.inl ⟨items, rfl⟩)
  | table entries =>
      simp only [untag?] at untagged
      split at untagged
      · next given _ =>
        cases given with
        | string quoted => exact .inr (.inr (.inr (dateTime?_scalar untagged)))
        | _ => cases untagged
      · obtain ⟨entries, -, rfl⟩ := Option.map_eq_some_iff.1 untagged
        exact .inr (.inr (.inl ⟨entries, rfl⟩))
  | _ => exact .inl (Option.some.inj untagged)

theorem kind_of_reader {s rest : List Char} {v : Toml}
    (read : reader.value? s = some (v, rest)) :
    (∃ text, v = .string text ∧ text.length + rest.length < s.length) ∨
      (∃ items, v = .array items) ∨ (∃ entries, v = .table entries) ∨ v.Scalar := by
  obtain ⟨fuel, w, found, untagged⟩ := reader_value?_eq_some_iff.1 read
  rcases kind_of_untag? untagged with rfl | kind
  · exact kind_of_value? found
  · exact .inr kind

theorem reader_string {s rest : List Char} {text : String}
    (read : reader.value? s = some (.string text, rest)) :
    text.length + rest.length < s.length := by
  rcases kind_of_reader read with ⟨text, ⟨⟩, shorter⟩ | ⟨items, ⟨⟩⟩ | ⟨entries, ⟨⟩⟩ | scalar
  · exact shorter
  · exact scalar.elim

theorem reader_dateTime {s rest : List Char} {text : String}
    (read : reader.value? s = some (.dateTime text, rest)) : Spelled text.toList := by
  rcases kind_of_reader read with ⟨text, ⟨⟩, -⟩ | ⟨items, ⟨⟩⟩ | ⟨entries, ⟨⟩⟩ | scalar
  exact scalar

end BraceTemplate.Toml
