/-
# BraceTemplate.Proofs.Render.DigitKeys — digits as steps into a map

Digits without quotes stand for a number: zeros in front of it are lost when the step is read, and
from 2⁶⁴ on there is no such step. A map is asked for the decimal digits of the number. So a key
that consists of digits is reached as it is written if it is short enough and no zero stands in
front of it; in quotes every key is reached as it is written.

* `Expr.parse_path`: a variable with steps behind it is read as its steps are;
* `Expr.parse_digits`: after a dot and between brackets digits are read in the same way;
* `Env.yields_quoted`: a key in quotes;
* `yields_digits`: a key that consists of digits, in its three spellings.
-/
import BraceTemplate.Proofs.Expr.Writing
import BraceTemplate.Render.Resolve

namespace BraceTemplate

set_option autoImplicit false

open Text

/-- An index is a number below 2⁶⁴. -/
theorem exists_toNat_eq_iff {n : Nat} : (∃ i : UInt64, n = i.toNat) ↔ n < 2 ^ 64 := by
  constructor
  · rintro ⟨i, rfl⟩
    exact i.toNat_lt
  · intro small
    exact ⟨UInt64.ofNatLT n small, UInt64.toNat_ofNatLT.symm⟩

namespace Expr

section

variable {text m : String} (name : isName m.toList = true)
include name

/-- A variable with steps behind it is read as its steps are. -/
theorem parse_path {w : List Char} {n : Nat} (whole : text.toList = m.toList ++ w)
    (begins : ∀ c ∈ w.head?, beginsStep c = true) (solid : Solid w) (passes : Passes '|' n w) :
    parse text = ((readSteps w).map fun steps => ⟨m, steps, []⟩).mapError fun fault =>
      ⟨text, fault⟩ := by
  have passesAll : Passes '|' n text.toList :=
    Divides.bar.passes_path name (whole ▸ .refl _) passes
  have divided : splitOutside '|' 0 none text.toList = [text.toList] := by
    have joined :=
      splitOutside_joined Divides.bar.plain passesAll (List.forall_mem_nil _) (.inr rfl)
    rwa [List.flatMap_nil, List.append_nil] at joined
  have trimmed : trim text.toList = text.toList := by
    rw [whole]
    exact ((solid_of_isName name).append solid).trim_eq
  have nonempty : ¬ text.toList.isEmpty = true := by
    rw [whole, List.isEmpty_iff, List.append_eq_nil_iff]
    exact fun empty => ne_nil_of_isName name empty.1
  obtain ⟨root, rest⟩ := takeWhile_append_dropWhile_word
    (fun c mem => beginsStep_of_continuesName (continuesName_of_isName name c mem)) begins
  have path : readPath text.toList = readSteps w >>= fun steps => pure (m, steps) := by
    simp only [whole, readPath, root, rest, name, if_true, String.ofList_toList]
  rw [parse, ofChars, divided, readParts, trimmed, if_neg nonempty, path, String.ofList_toList]
  cases readSteps w <;> rfl

/-- A variable with a word behind a dot. -/
theorem parse_dotted {word : List Char} (whole : text.toList = m.toList ++ '.' :: word)
    (continues : ∀ c ∈ word, continuesName c = true) :
    parse text = ((readDotted word).map fun step => ⟨m, [step], []⟩).mapError fun fault =>
      ⟨text, fault⟩ := by
  have plain : ∀ c ∈ '.' :: word, isPlain c = true :=
    List.forall_mem_cons.2 ⟨by decide, fun c mem => isPlain_of_continuesName (continues c mem)⟩
  have noBlank : ∀ c ∈ '.' :: word, isBlank c = false :=
    List.forall_mem_cons.2 ⟨by decide, fun c mem => isBlank_of_continuesName (continues c mem)⟩
  have noBar : '|' ∉ '.' :: word := by
    rw [List.mem_cons, not_or]
    exact ⟨by decide, not_mem_of_class continues (by decide)⟩
  have begins : ∀ c ∈ ('.' :: word).head?, beginsStep c = true := by
    rintro _ ⟨⟩
    decide
  have steps : readSteps ('.' :: (word ++ [])) = _ := readSteps_dotted continues nofun
  rw [List.append_nil] at steps
  rw [parse_path name whole begins (.of_forall noBlank) (.of_plain plain noBar), steps, readSteps]
  cases readDotted word <;> rfl

/-- A variable with a bracketed text behind it. -/
theorem parse_bracketed {n : Nat} {inner : List Char}
    (whole : text.toList = m.toList ++ '[' :: (inner ++ [']'])) (inside : Bracketed n inner) :
    parse text = ((readBracketed (trim inner)).map fun step => ⟨m, [step], []⟩).mapError
      fun fault => ⟨text, fault⟩ := by
  have begins : ∀ c ∈ ('[' :: (inner ++ [']'])).head?, beginsStep c = true := by
    rintro _ ⟨⟩
    decide
  have solid : Solid ('[' :: (inner ++ [']'])) := .between (by decide) (by decide) inner
  rw [parse_path name whole begins solid (.brackets inside), readSteps_bracketed inside, readSteps]
  cases readBracketed (trim inner) <;> rfl

/-- After a dot and between brackets digits are read in the same way. -/
theorem parse_digits {d : String} (digits : isDigits d.toList = true) (nonempty : d ≠ "")
    (spelled : text ∈ [m ++ "." ++ d, m ++ "[" ++ d ++ "]"]) :
    parse text = ((readIndex d.toList).map fun step => ⟨m, [step], []⟩).mapError fun fault =>
      ⟨text, fault⟩ := by
  have continues := continuesName_of_isDigits digits
  obtain ⟨c, rest, shape⟩ := List.exists_cons_of_ne_nil (mt String.toList_eq_nil_iff.1 nonempty)
  rcases List.mem_pair.1 spelled with rfl | rfl
  · have whole : (m ++ "." ++ d).toList = m.toList ++ '.' :: d.toList := by simp
    have read : readDotted d.toList = readIndex d.toList := by
      rw [readDotted, shape, if_neg (by simp), ← shape, if_pos digits]
    rw [parse_dotted name whole continues, read]
  · have whole : (m ++ "[" ++ d ++ "]").toList = m.toList ++ '[' :: (d.toList ++ [']']) := by simp
    have inside : Bracketed 0 d.toList :=
      .of_plain fun c mem => isPlain_of_continuesName (continues c mem)
    have noQuote : ¬ isQuote c = true := by
      rw [isQuote_of_isDigit (List.all_eq_true.1 digits c (by simp [shape]))]
      decide
    have read : readBracketed d.toList = readIndex d.toList := by
      rw [shape] at digits ⊢
      rw [readBracketed, if_neg noQuote, if_pos digits]
    rw [parse_bracketed name whole inside, (solid_of_isDigits digits).trim_eq, read]

/-- Without digits there is no step. -/
theorem parse_no_digits (spelled : text ∈ [m ++ "." ++ "", m ++ "[" ++ "" ++ "]"]) :
    ∃ fault, parse text = .error ⟨text, fault⟩ := by
  rcases List.mem_pair.1 spelled with rfl | rfl
  · have whole : (m ++ "." ++ "").toList = m.toList ++ '.' :: [] := by simp
    exact ⟨.emptyStep, parse_dotted name whole nofun⟩
  · have whole : (m ++ "[" ++ "" ++ "]").toList = m.toList ++ '[' :: ([] ++ [']']) := by simp
    exact ⟨.emptyBracket, parse_bracketed name whole .nil⟩

/-- Digits are read as the number that they denote. -/
theorem parse_digits_eq_ok_iff {d : String} (digits : isDigits d.toList = true)
    (spelled : text ∈ [m ++ "." ++ d, m ++ "[" ++ d ++ "]"]) {e : Expr} :
    parse text = .ok e ↔ d ≠ "" ∧ ∃ i, valueOf d.toList = i.toNat ∧ e = ⟨m, [.index i], []⟩ := by
  by_cases empty : d = ""
  · subst empty
    obtain ⟨fault, read⟩ := parse_no_digits name spelled
    simp [read]
  · rw [parse_digits name digits empty spelled]
    constructor
    · intro read
      cases index : readIndex d.toList with
      | ok step =>
          obtain ⟨i, value, rfl⟩ := readIndex_eq_ok_iff.1 index
          rw [index] at read
          exact ⟨empty, i, value, (Except.ok.inj read).symm⟩
      | error fault =>
          rw [index] at read
          cases read
    · rintro ⟨-, i, value, rfl⟩
      rw [readIndex_eq_ok_iff.2 ⟨i, value, rfl⟩]
      rfl

theorem exists_parse_digits_iff {d : String} (digits : isDigits d.toList = true)
    (spelled : text ∈ [m ++ "." ++ d, m ++ "[" ++ d ++ "]"]) :
    (∃ e, parse text = .ok e) ↔ d ≠ "" ∧ valueOf d.toList < 2 ^ 64 := by
  simp only [parse_digits_eq_ok_iff name digits spelled]
  constructor
  · rintro ⟨_, nonempty, i, value, -⟩
    exact ⟨nonempty, exists_toNat_eq_iff.1 ⟨i, value⟩⟩
  · rintro ⟨nonempty, small⟩
    obtain ⟨i, value⟩ := exists_toNat_eq_iff.2 small
    exact ⟨_, nonempty, i, value, rfl⟩

/-- A number that is too large is refused. -/
theorem parse_digits_of_le {d : String} (digits : isDigits d.toList = true)
    (large : 2 ^ 64 ≤ valueOf d.toList)
    (spelled : text ∈ [m ++ "." ++ d, m ++ "[" ++ d ++ "]"]) :
    parse text = .error ⟨text, .indexOutOfRange d⟩ := by
  have nonempty : d ≠ "" := by
    rintro rfl
    exact absurd large (by decide)
  have tooLarge : ¬ valueOf d.toList < UInt64.size := Nat.not_lt.2 large
  rw [parse_digits name digits nonempty spelled, readIndex, dif_neg tooLarge, String.ofList_toList]
  rfl

end

end Expr

theorem Step.follow?_index (i : UInt64) (entries : Dict Value) :
    (Step.index i).follow? (.map entries) = entries.find? (toString i.toNat) := by
  rw [Nat.toString_eq_ofList_toDigits]
  rfl

namespace Env

variable {env : Env} {locals : Dict Value}

/-- A text is an expression with this value. -/
def Yields (env : Env) (locals : Dict Value) (text : String) (v : Value) : Prop :=
  ∃ e, Expr.parse text = .ok e ∧ env.resolve locals e = .ok v

theorem resolve_step_eq_ok_iff {m : String} {v w : Value} {step : Step}
    (bound : env.lookup? locals m = some v) :
    env.resolve locals ⟨m, [step], []⟩ = .ok w ↔ step.follow? v = some w := by
  simp only [resolve, bound, follow]
  cases step.follow? v <;> simp [modify]

/-- A key in quotes is reached as it is written. -/
theorem yields_quoted {m key : String} {entries : Dict Value} {v : Value}
    (name : isName m.toList = true) (bound : env.lookup? locals m = some (.map entries))
    (noQuote : '\'' ∉ key.toList) (stored : entries.find? key = some v) :
    env.Yields locals (m ++ "['" ++ key ++ "']") v := by
  have opens : "['".toList = ['[', '\''] := by decide
  have closes : "']".toList = ['\'', ']'] := by decide
  have whole : (m ++ "['" ++ key ++ "']").toList =
      m.toList ++ '[' :: ('\'' :: (key.toList ++ ['\'']) ++ [']']) := by
    simp [opens, closes]
  have read : Expr.readBracketed ('\'' :: (key.toList ++ ['\''])) = .ok (.key key) :=
    Expr.readBracketed_eq_ok_iff.2 (.inl ⟨'\'', key.toList, by decide, rfl, by simp⟩)
  have inside := Expr.Bracketed.of_quoted (q := '\'') (by decide) noQuote
  have solid : Solid ('\'' :: (key.toList ++ ['\''])) := .between (by decide) (by decide) _
  refine ⟨⟨m, [.key key], []⟩, ?_, (resolve_step_eq_ok_iff bound).2 stored⟩
  rw [Expr.parse_bracketed name whole inside, solid.trim_eq, read]
  rfl

/-- A map is asked for the text of the number that the digits denote. -/
theorem yields_digits_iff {text m d : String} {entries : Dict Value}
    (name : isName m.toList = true) (bound : env.lookup? locals m = some (.map entries))
    (digits : isDigits d.toList = true) (spelled : text ∈ [m ++ "." ++ d, m ++ "[" ++ d ++ "]"])
    (w : Value) :
    env.Yields locals text w ↔
      (∃ e, Expr.parse text = .ok e) ∧ entries.find? (toString (valueOf d.toList)) = some w := by
  have resolves : ∀ {e}, Expr.parse text = .ok e →
      (env.resolve locals e = .ok w ↔
        entries.find? (toString (valueOf d.toList)) = some w) := by
    intro e read
    obtain ⟨-, i, value, rfl⟩ := (Expr.parse_digits_eq_ok_iff name digits spelled).1 read
    rw [resolve_step_eq_ok_iff bound, Step.follow?_index, value]
  constructor
  · rintro ⟨e, read, value⟩
    exact ⟨⟨e, read⟩, (resolves read).1 value⟩
  · rintro ⟨⟨e, read⟩, found⟩
    exact ⟨e, read, (resolves read).2 found⟩

end Env

/-- **How the keys that consist of digits are reached.** In quotes such a key is reached as it is
written. Without quotes it denotes a number, which must be below 2⁶⁴, and the map is asked for the
text of this number: the key itself, if no zero stands in front of it. -/
theorem yields_digits {env : Env} {locals entries : Dict Value} {m d : String} {v : Value}
    (name : isName m.toList = true) (bound : env.lookup? locals m = some (.map entries))
    (digits : isDigits d.toList = true) (stored : entries.find? d = some v) :
    env.Yields locals (m ++ "['" ++ d ++ "']") v ∧
      ∀ text ∈ [m ++ "." ++ d, m ++ "[" ++ d ++ "]"],
        ((∃ e, Expr.parse text = .ok e) ↔ d ≠ "" ∧ valueOf d.toList < 2 ^ 64) ∧
        (2 ^ 64 ≤ valueOf d.toList → Expr.parse text = .error ⟨text, .indexOutOfRange d⟩) ∧
        (∀ w, env.Yields locals text w ↔
          (∃ e, Expr.parse text = .ok e) ∧
            entries.find? (toString (valueOf d.toList)) = some w) ∧
        (IsNumeral d.toList → valueOf d.toList < 2 ^ 64 → env.Yields locals text v) := by
  have noQuote : '\'' ∉ d.toList := not_mem_of_isDigits digits (by decide)
  refine ⟨Env.yields_quoted name bound noQuote stored, fun text spelled => ?_⟩
  have parses := Expr.exists_parse_digits_iff name digits spelled
  have yields := Env.yields_digits_iff name bound digits spelled
  refine ⟨parses, fun large => Expr.parse_digits_of_le name digits large spelled, yields, ?_⟩
  intro numeral small
  have nonempty : d ≠ "" := by
    rintro rfl
    rcases numeral with same | ⟨c, rest, same, -⟩ <;> cases same
  rw [yields, toString_valueOf digits numeral]
  exact ⟨parses.2 ⟨nonempty, small⟩, stored⟩

/-- A key below 2⁶⁴ with no zero in front, in a local map that hides a global one. -/
theorem yields_digits_ten :
    let entries : Dict Value := [("007", .string "bond"), ("10", .string "ten")]
    let env : Env := ⟨Context.ofEntries [("m", .list [])], [], [], []⟩
    env.lookup? [("m", .map entries)] "m" = some (.map entries) ∧
      entries.find? "10" = some (.string "ten") ∧
      env.Yields [("m", .map entries)] "m['10']" (.string "ten") ∧
      env.Yields [("m", .map entries)] "m.10" (.string "ten") ∧
      env.Yields [("m", .map entries)] "m[10]" (.string "ten") := by
  intro entries env
  have bound : env.lookup? [("m", .map entries)] "m" = some (.map entries) := rfl
  have stored : entries.find? "10" = some (.string "ten") := rfl
  have numeral : IsNumeral "10".toList := .inr ⟨'1', ['0'], by decide, by decide⟩
  obtain ⟨quoted, spelled⟩ :=
    yields_digits (m := "m") (d := "10") (by decide) bound (by decide) stored
  have plain : ∀ text ∈ ["m" ++ "." ++ "10", "m" ++ "[" ++ "10" ++ "]"],
      env.Yields [("m", .map entries)] text (.string "ten") :=
    fun text mem => (spelled text mem).2.2.2 numeral (by decide)
  exact ⟨bound, stored, quoted, plain _ List.mem_cons_self,
    plain _ (List.mem_cons_of_mem _ List.mem_cons_self)⟩

/-- Zeros in front of a number are lost, so that another key is reached, and a number of more than
64 bits is no step. -/
theorem digits_not_as_written :
    let entries : Dict Value :=
      [("007", .string "bond"), ("18446744073709551616", .string "large"), ("7", .string "seven")]
    let env : Env := ⟨Context.ofEntries [("m", .map entries)], [], [], []⟩
    env.lookup? [] "m" = some (.map entries) ∧
      entries.find? "007" = some (.string "bond") ∧
      env.Yields [] "m[007]" (.string "seven") ∧ ¬ env.Yields [] "m[007]" (.string "bond") ∧
      entries.find? "18446744073709551616" = some (.string "large") ∧
      ¬ ∃ e, Expr.parse "m[18446744073709551616]" = .ok e := by
  intro entries env
  have parsed : Expr.parse "m[007]" = .ok ⟨"m", [.index 7], []⟩ := by cbv
  have value : env.resolve [] ⟨"m", [.index 7], []⟩ = .ok (.string "seven") := by cbv
  refine ⟨by cbv, rfl, ⟨_, parsed, value⟩, ?_, rfl, ?_⟩
  · rintro ⟨e, parsed', value'⟩
    rw [parsed] at parsed'
    obtain rfl := Except.ok.inj parsed'
    rw [value] at value'
    exact absurd (Value.string.inj (Except.ok.inj value')) (by decide)
  · have refused : Expr.parse "m[18446744073709551616]" =
        .error ⟨"m[18446744073709551616]", .indexOutOfRange "18446744073709551616"⟩ := by cbv
    rintro ⟨e, read⟩
    rw [refused] at read
    cases read

end BraceTemplate
