/-
# BraceTemplate.Proofs.Text.Padding — names, digits and the blanks around them

A text with blanks around it is `Padded`; trimming takes them away and nothing else. Names and digit
strings consist of characters that mean nothing else, so what stands around them can be told apart.

* `trim_eq_iff`: trimming leaves a text with no blank at its ends exactly when that text is padded;
* `not_mem_of_class`, `not_mem_of_isName`, `not_mem_of_isDigits`: characters that do not occur;
* `append_cons_inj`: a text is cut at the first occurrence of a character in one way only;
* `valueOf_digits`: leading zeros aside, the decimal digits of a number denote this number;
* `toDigits_valueOf`: digits with no zero in front are the decimal digits of what they denote.
-/
import BraceTemplate.Text.Blank
import BraceTemplate.Text.Cut
import BraceTemplate.Text.Name

namespace BraceTemplate.Text

set_option autoImplicit false

/-- A text with blanks around it. -/
def Padded (s inner : List Char) : Prop :=
  ∃ before after, s = before ++ inner ++ after ∧ (∀ c ∈ before, isBlank c = true) ∧
    ∀ c ∈ after, isBlank c = true

/-- Neither the first nor the last character is blank. -/
def Solid (s : List Char) : Prop :=
  (∀ c ∈ s.head?, isBlank c = false) ∧ ∀ c ∈ s.getLast?, isBlank c = false

/-- A text of characters of one class has no other character. -/
theorem not_mem_of_class {p : Char → Bool} {s : List Char} (valid : ∀ c ∈ s, p c = true) {c : Char}
    (other : p c = false) : c ∉ s := by
  intro mem
  rw [valid c mem] at other
  cases other

/-- What stands in front of the first occurrence of a character, and what stands behind it. -/
theorem append_cons_inj {c : Char} {s s' rest rest' : List Char} (absent : c ∉ s) (absent' : c ∉ s')
    (same : s ++ c :: rest = s' ++ c :: rest') : s = s' ∧ rest = rest' := by
  have cut := cutAt?_append_char absent rest
  rw [same, cutAt?_append_char absent'] at cut
  obtain ⟨first, second⟩ := Prod.mk.inj (Option.some.inj cut)
  exact ⟨first.symm, second.symm⟩

/-- What stands in front of the last occurrence of a character, and what stands behind it. -/
theorem append_cons_inj_last {c : Char} {s s' rest rest' : List Char} (absent : c ∉ rest)
    (absent' : c ∉ rest') (same : s ++ c :: rest = s' ++ c :: rest') : s = s' ∧ rest = rest' := by
  have mirrored := congrArg List.reverse same
  simp only [List.reverse_append, List.reverse_cons, List.append_assoc, List.cons_append,
    List.nil_append] at mirrored
  obtain ⟨last, first⟩ :=
    append_cons_inj (mt List.mem_reverse.1 absent) (mt List.mem_reverse.1 absent') mirrored
  exact ⟨List.reverse_inj.1 first, List.reverse_inj.1 last⟩

/-! ## Blanks -/

/-- No blank stands in front of a text that does not begin with one. -/
theorem eq_nil_of_blanks {before s rest : List Char} (blanks : ∀ c ∈ before, isBlank c = true)
    {c : Char} (other : isBlank c = false) (same : before ++ s = c :: rest) : before = [] := by
  cases before with
  | nil => rfl
  | cons b before =>
      have blank := blanks b List.mem_cons_self
      rw [(List.cons.inj same).1, other] at blank
      cases blank

theorem trimStart_append {before s : List Char} (blanks : ∀ c ∈ before, isBlank c = true) :
    trimStart (before ++ s) = trimStart s :=
  List.dropWhile_append_of_pos blanks

theorem trimEnd_append {s after : List Char} (blanks : ∀ c ∈ after, isBlank c = true) :
    trimEnd (s ++ after) = trimEnd s := by
  have blanks' : ∀ c ∈ after.reverse, isBlank c = true :=
    fun c mem => blanks c (List.mem_reverse.1 mem)
  rw [trimEnd, List.reverse_append, List.dropWhile_append_of_pos blanks', trimEnd]

theorem exists_trimStart (s : List Char) :
    ∃ before, s = before ++ trimStart s ∧ ∀ c ∈ before, isBlank c = true :=
  ⟨s.takeWhile isBlank, List.takeWhile_append_dropWhile.symm,
    List.all_eq_true.1 List.all_takeWhile⟩

theorem exists_trimEnd (s : List Char) :
    ∃ after, s = trimEnd s ++ after ∧ ∀ c ∈ after, isBlank c = true := by
  obtain ⟨before, same, blanks⟩ := exists_trimStart s.reverse
  refine ⟨before.reverse, ?_, fun c mem => blanks c (List.mem_reverse.1 mem)⟩
  rw [trimEnd, ← List.reverse_append]
  exact List.reverse_eq_iff.1 same

/-- What stands in front of a character that is no blank stays. -/
theorem trimEnd_append_cons (s : List Char) {c : Char} (other : isBlank c = false)
    (rest : List Char) : trimEnd (s ++ c :: rest) = s ++ c :: trimEnd rest := by
  have kept : (c :: s.reverse).dropWhile isBlank = c :: s.reverse :=
    List.dropWhile_cons_of_neg (Bool.eq_false_iff.1 other)
  rw [trimEnd, List.reverse_append, List.reverse_cons, List.append_assoc, List.singleton_append,
    List.dropWhile_append, kept, trimEnd]
  by_cases blank : (rest.reverse.dropWhile isBlank).isEmpty = true
  · rw [if_pos blank, List.isEmpty_iff.1 blank]
    simp
  · rw [if_neg blank]
    simp

/-- Only what stands at the end of a text is trimmed if the text does not begin with a blank. -/
theorem trim_append {front s : List Char} (nonempty : front ≠ [])
    (first : ∀ c ∈ front.head?, isBlank c = false) (nonempty' : s ≠ [])
    (first' : ∀ c ∈ s.head?, isBlank c = false) : trim (front ++ s) = front ++ trim s := by
  cases front with
  | nil => exact absurd rfl nonempty
  | cons c front =>
      cases s with
      | nil => exact absurd rfl nonempty'
      | cons d s =>
          have other : isBlank d = false := first' d rfl
          have start : trimStart (d :: s) = d :: s := dropWhile_eq_self first'
          have start' : trimStart (c :: front ++ d :: s) = c :: front ++ d :: s :=
            dropWhile_eq_self first
          have last := trimEnd_append_cons [] other s
          rw [trim, trim, start, start', trimEnd_append_cons _ other]
          exact congrArg (c :: front ++ ·) last.symm

namespace Padded

variable {s inner : List Char}

theorem refl (s : List Char) : Padded s s :=
  ⟨[], [], by simp, nofun, nofun⟩

theorem of_trim (s : List Char) : Padded s (trim s) := by
  obtain ⟨before, start, blanks⟩ := exists_trimStart s
  obtain ⟨after, stop, blanks'⟩ := exists_trimEnd (trimStart s)
  refine ⟨before, after, ?_, blanks, blanks'⟩
  rw [List.append_assoc, trim, ← stop]
  exact start

theorem trim_eq (padded : Padded s inner) : trim s = trim inner := by
  obtain ⟨before, after, rfl, blanks, blanks'⟩ := padded
  rw [List.append_assoc, trim, trimStart_append blanks]
  by_cases blank : ∀ c ∈ inner, isBlank c = true
  · have all : ∀ c ∈ inner ++ after, isBlank c = true :=
      List.forall_mem_append.2 ⟨blank, blanks'⟩
    rw [trim_eq_nil_iff.2 blank, ← trim, trim_eq_nil_iff.2 all]
  · have first : trimStart inner ≠ [] := mt dropWhile_eq_nil_iff.1 blank
    have start : trimStart (inner ++ after) = trimStart inner ++ after := by
      rw [trimStart] at first ⊢
      rw [List.dropWhile_append, if_neg (mt List.isEmpty_iff.1 first), trimStart]
    rw [start, trimEnd_append blanks', trim]

theorem trimEnd (padded : Padded s inner) (nonempty : inner ≠ []) (solid : Solid inner) :
    Padded (Text.trimEnd s) inner := by
  obtain ⟨before, after, rfl, blanks, blanks'⟩ := padded
  obtain ⟨front, last, rfl⟩ := (List.eq_nil_or_concat inner).resolve_left nonempty
  rw [List.concat_eq_append] at solid ⊢
  have other : isBlank last = false := solid.2 last List.getLast?_concat
  refine ⟨before, [], ?_, blanks, nofun⟩
  rw [trimEnd_append blanks', ← List.append_assoc, trimEnd_append_cons _ other]
  simp [Text.trimEnd]

theorem not_mem (padded : Padded s inner) {c : Char} (noBlank : isBlank c = false)
    (absent : c ∉ inner) : c ∉ s := by
  obtain ⟨before, after, rfl, blanks, blanks'⟩ := padded
  rw [List.mem_append, List.mem_append, not_or, not_or]
  exact ⟨⟨not_mem_of_class blanks noBlank, absent⟩, not_mem_of_class blanks' noBlank⟩

end Padded

/-- Trimming leaves no blank at either end. -/
theorem solid_trim (s : List Char) : Solid (trim s) := by
  obtain ⟨after, stop, -⟩ := exists_trimEnd (trimStart s)
  constructor
  · intro c mem
    have first : c ∈ (trimStart s).head? := by
      rw [stop, List.head?_append, show (trimEnd (trimStart s)).head? = some c from mem]
      rfl
    have blank := List.head?_dropWhile_not isBlank s
    rw [show (s.dropWhile isBlank).head? = some c from first] at blank
    exact blank
  · intro c mem
    rw [trim, trimEnd, List.getLast?_reverse] at mem
    have blank := List.head?_dropWhile_not isBlank (trimStart s).reverse
    rw [show ((trimStart s).reverse.dropWhile isBlank).head? = some c from mem] at blank
    exact blank

theorem Solid.trim_eq {s : List Char} (solid : Solid s) : trim s = s :=
  trim_eq_self solid.1 solid.2

theorem trim_eq_iff {s inner : List Char} (solid : Solid inner) :
    trim s = inner ↔ Padded s inner := by
  constructor
  · rintro rfl
    exact .of_trim s
  · intro padded
    rw [padded.trim_eq, solid.trim_eq]

/-- A text with a character that is no blank at either end. -/
theorem Solid.between {c d : Char} (first : isBlank c = false) (last : isBlank d = false)
    (s : List Char) : Solid (c :: (s ++ [d])) := by
  constructor
  · rintro _ ⟨⟩
    exact first
  · rw [← List.cons_append, List.getLast?_concat]
    rintro _ ⟨⟩
    exact last

theorem Solid.append {s t : List Char} (first : Solid s) (last : Solid t) : Solid (s ++ t) := by
  constructor
  · intro c mem
    rw [List.head?_append] at mem
    cases s with
    | nil => exact last.1 c mem
    | cons d s => exact first.1 c mem
  · intro c mem
    rw [List.getLast?_append] at mem
    cases found : t.getLast? with
    | none =>
        rw [found] at mem
        exact first.2 c mem
    | some d =>
        rw [found] at mem
        exact last.2 c (found.symm ▸ mem)

theorem Solid.of_forall {s : List Char} (all : ∀ c ∈ s, isBlank c = false) : Solid s :=
  ⟨fun c mem => all c (List.mem_of_head? mem), fun c mem => all c (List.mem_of_getLast? mem)⟩

/-! ## Names -/

theorem isAlpha_iff {c : Char} :
    c.isAlpha = true ↔ 65 ≤ c.toNat ∧ c.toNat ≤ 90 ∨ 97 ≤ c.toNat ∧ c.toNat ≤ 122 := by
  show (decide (c.val ≥ 'A'.val ∧ c.val ≤ 'Z'.val) ||
    (decide (c.val ≥ 'a'.val) && decide (c.val ≤ 'z'.val))) = true ↔ _
  simp only [Bool.or_eq_true, Bool.and_eq_true, decide_eq_true_eq, ge_iff_le,
    UInt32.le_iff_toNat_le]
  exact Iff.rfl

theorem continuesName_iff {c : Char} :
    continuesName c = true ↔ (c.isAlpha = true ∨ c.isDigit = true) ∨ c = '_' := by
  rw [continuesName, Char.isAlphanum, Bool.or_eq_true, Bool.or_eq_true, beq_iff_eq]

theorem isBlank_of_continuesName {c : Char} (continues : continuesName c = true) :
    isBlank c = false := by
  have bounds : 48 ≤ c.toNat ∧ c.toNat ≤ 122 := by
    rw [continuesName_iff, isAlpha_iff, Char.isDigit_iff_toNat] at continues
    rcases continues with (letter | digit) | rfl
    · omega
    · exact ⟨digit.1, Nat.le_trans digit.2 (by decide)⟩
    · decide
  simp [isBlank]
  omega

theorem continuesName_of_isName {name : List Char} (valid : isName name = true) :
    ∀ c ∈ name, continuesName c = true := by
  cases name with
  | nil => exact nofun
  | cons first rest =>
      rw [isName, Bool.and_eq_true, List.all_eq_true] at valid
      refine List.forall_mem_cons.2 ⟨?_, valid.2⟩
      rw [continuesName_iff]
      rcases (Bool.or_eq_true _ _).mp valid.1 with letter | underscore
      · exact .inl (.inl letter)
      · exact .inr (eq_of_beq underscore)

theorem ne_nil_of_isName {name : List Char} (valid : isName name = true) : name ≠ [] := by
  rintro rfl
  cases valid

theorem solid_of_isName {name : List Char} (valid : isName name = true) : Solid name :=
  .of_forall fun c mem => isBlank_of_continuesName (continuesName_of_isName valid c mem)

theorem not_mem_of_isName {name : List Char} (valid : isName name = true) {c : Char}
    (other : continuesName c = false) : c ∉ name :=
  not_mem_of_class (continuesName_of_isName valid) other

/-- A name does not begin with a digit. -/
theorem isDigits_of_isName {name : List Char} (valid : isName name = true) :
    isDigits name = false := by
  cases name with
  | nil => cases valid
  | cons first rest =>
      rw [isName, Bool.and_eq_true] at valid
      have noDigit : first.isDigit = false := by
        rw [Bool.eq_false_iff]
        intro digit
        have low : first.toNat ≤ 57 := (Char.isDigit_iff_toNat.1 digit).2
        rcases (Bool.or_eq_true _ _).mp valid.1 with letter | underscore
        · rw [isAlpha_iff] at letter
          omega
        · rw [eq_of_beq underscore] at low
          exact absurd low (by decide)
      simp [isDigits, noDigit]

/-! ## Digits -/

theorem continuesName_of_isDigits {digits : List Char} (valid : isDigits digits = true) :
    ∀ c ∈ digits, continuesName c = true :=
  fun c mem => continuesName_iff.2 (.inl (.inr (List.all_eq_true.1 valid c mem)))

theorem solid_of_isDigits {digits : List Char} (valid : isDigits digits = true) : Solid digits :=
  .of_forall fun c mem => isBlank_of_continuesName (continuesName_of_isDigits valid c mem)

theorem not_mem_of_isDigits {digits : List Char} (valid : isDigits digits = true) {c : Char}
    (other : continuesName c = false) : c ∉ digits :=
  not_mem_of_class (continuesName_of_isDigits valid) other

theorem valueFrom_eq (before : Nat) (digits : List Char) :
    valueFrom before digits = Nat.ofDigitChars 10 digits before := by
  simp only [valueFrom, Nat.ofDigitChars, digitValue, Nat.mul_comm]

/-- The digits of a number, with any number of zeros in front. -/
theorem valueOf_digits (zeros n : Nat) :
    valueOf (List.replicate zeros '0' ++ Nat.toDigits 10 n) = n := by
  rw [valueOf, valueFrom_eq, Nat.ofDigitChars_append, Nat.ofDigitChars_replicate_zero,
    Nat.mul_zero, Nat.ofDigitChars_ten_toDigits]

theorem isDigits_digits (zeros n : Nat) :
    isDigits (List.replicate zeros '0' ++ Nat.toDigits 10 n) = true := by
  rw [isDigits, List.all_append, Bool.and_eq_true]
  constructor
  · rw [List.all_eq_true]
    intro c mem
    rw [List.eq_of_mem_replicate mem]
    decide
  · rw [List.all_eq_true]
    exact fun c mem => Nat.isDigit_of_mem_toDigits (by decide) (by decide) mem

/-- Digits as numbers are written: a zero alone, or a first digit that is no zero. -/
def IsNumeral (digits : List Char) : Prop :=
  digits = ['0'] ∨ ∃ c rest, digits = c :: rest ∧ c ≠ '0'

theorem digitValue_lt {c : Char} (digit : c.isDigit = true) : digitValue c < 10 := by
  have bounds : 48 ≤ c.toNat ∧ c.toNat ≤ 57 := Char.isDigit_iff_toNat.1 digit
  show c.toNat - 48 < 10
  omega

theorem digitChar_digitValue {c : Char} (digit : c.isDigit = true) :
    Nat.digitChar (digitValue c) = c := by
  have bounds : 48 ≤ c.toNat ∧ c.toNat ≤ 57 := Char.isDigit_iff_toNat.1 digit
  apply Char.toNat_inj.1
  rw [Nat.toNat_digitChar_of_lt_ten (digitValue_lt digit)]
  show 48 + (c.toNat - 48) = c.toNat
  omega

/-- Behind a number that is not zero every digit is kept. -/
theorem toDigits_valueFrom {before : Nat} (positive : 0 < before) {digits : List Char}
    (valid : isDigits digits = true) :
    Nat.toDigits 10 (valueFrom before digits) = Nat.toDigits 10 before ++ digits := by
  induction digits generalizing before with
  | nil => simp [valueFrom]
  | cons c rest ih =>
      rw [isDigits, List.all_cons, Bool.and_eq_true] at valid
      obtain ⟨digit, valid⟩ := valid
      have small : digitValue c < 10 := digitValue_lt digit
      have last : Nat.toDigits 10 (before * 10 + digitValue c) = Nat.toDigits 10 before ++ [c] := by
        rw [Nat.mul_comm, ← Nat.toDigits_append_toDigits (by decide) positive small,
          Nat.toDigits_of_lt_base small, digitChar_digitValue digit]
      have positive' : 0 < before * 10 + digitValue c := by omega
      show Nat.toDigits 10 (valueFrom (before * 10 + digitValue c) rest) = _
      rw [ih positive' valid, last, List.append_assoc, List.singleton_append]

theorem toDigits_valueOf {digits : List Char} (valid : isDigits digits = true)
    (numeral : IsNumeral digits) : Nat.toDigits 10 (valueOf digits) = digits := by
  rcases numeral with rfl | ⟨c, rest, rfl, noZero⟩
  · decide
  · rw [isDigits, List.all_cons, Bool.and_eq_true] at valid
    obtain ⟨digit, valid⟩ := valid
    have positive : 0 < digitValue c := by
      refine Nat.pos_of_ne_zero fun zero => noZero ?_
      rw [← digitChar_digitValue digit, zero]
      rfl
    have first : valueOf (c :: rest) = valueFrom (digitValue c) rest := by
      rw [valueOf, valueFrom, List.foldl_cons, Nat.zero_mul, Nat.zero_add, valueFrom]
    rw [first, toDigits_valueFrom positive valid, Nat.toDigits_of_lt_base (digitValue_lt digit),
      digitChar_digitValue digit, List.singleton_append]

/-- Digits without a zero in front are the text of their number. -/
theorem toString_valueOf {d : String} (digits : isDigits d.toList = true)
    (numeral : IsNumeral d.toList) : toString (valueOf d.toList) = d := by
  rw [Nat.toString_eq_ofList_toDigits, toDigits_valueOf digits numeral, String.ofList_toList]

end BraceTemplate.Text
