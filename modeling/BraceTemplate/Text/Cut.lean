/-
# BraceTemplate.Text.Cut — cutting a text at a character

`cutAt? p s` divides `s` at its first character with property `p`; that character is in neither
part. `eq_of_cutAt?_eq_some`, `cutAt?_append` and `cutAt?_eq_none_iff` say what the parts are.

`splitAt` divides a text at every separator. It takes apart what `joinWith` puts together
(`splitAt_joinWith`), and loses nothing (`joinWith_splitAt`).
-/

namespace BraceTemplate.Text

set_option autoImplicit false

/-- The texts before and after the first character with property `p`, if there is one. -/
def cutAt? (p : Char → Bool) : List Char → Option (List Char × List Char)
  | [] => none
  | c :: cs =>
      if p c then some ([], cs)
      else (cutAt? p cs).map fun (before, after) => (c :: before, after)

theorem cutAt?_eq_none_iff {p : Char → Bool} {s : List Char} :
    cutAt? p s = none ↔ ∀ c ∈ s, p c = false := by
  induction s with
  | nil => simp [cutAt?]
  | cons c cs ih => by_cases h : p c <;> simp [cutAt?, h, ih]

theorem eq_of_cutAt?_eq_some {p : Char → Bool} {s before after : List Char}
    (h : cutAt? p s = some (before, after)) :
    ∃ c, p c = true ∧ (∀ d ∈ before, p d = false) ∧ s = before ++ c :: after := by
  induction s generalizing before with
  | nil => simp [cutAt?] at h
  | cons c cs ih =>
    by_cases hc : p c = true
    · simp only [cutAt?, hc, if_true, Option.some.injEq, Prod.mk.injEq] at h
      obtain ⟨rfl, rfl⟩ := h
      exact ⟨c, hc, by simp, rfl⟩
    · simp only [cutAt?, hc, Bool.false_eq_true, if_false, Option.map_eq_some_iff] at h
      obtain ⟨⟨u, v⟩, huv, heq⟩ := h
      obtain ⟨rfl, rfl⟩ := Prod.mk.inj heq
      obtain ⟨d, hd, hu, rfl⟩ := ih huv
      exact ⟨d, hd, by simpa [hc] using hu, rfl⟩

theorem cutAt?_append {p : Char → Bool} {before : List Char} {c : Char}
    (absent : ∀ d ∈ before, p d = false) (found : p c = true) (after : List Char) :
    cutAt? p (before ++ c :: after) = some (before, after) := by
  induction before with
  | nil => simp [cutAt?, found]
  | cons d before ih =>
      rw [List.forall_mem_cons] at absent
      simp [cutAt?, absent.1, ih absent.2]

theorem beq_of_not_mem {c : Char} {s : List Char} (absent : c ∉ s) : ∀ d ∈ s, (d == c) = false := by
  intro d mem
  rw [beq_eq_false_iff_ne]
  rintro rfl
  exact absent mem

theorem bne_of_not_mem {c : Char} {s : List Char} (absent : c ∉ s) : ∀ d ∈ s, (d != c) = true := by
  intro d mem
  rw [bne, beq_of_not_mem absent d mem]
  rfl

/-- A text is cut at the first occurrence of a character. -/
theorem cutAt?_append_char {c : Char} {before : List Char} (absent : c ∉ before)
    (after : List Char) : cutAt? (· == c) (before ++ c :: after) = some (before, after) :=
  cutAt?_append (beq_of_not_mem absent) (beq_self_eq_true c) after

theorem length_dropWhile_le {α : Type} (p : α → Bool) (l : List α) :
    (l.dropWhile p).length ≤ l.length := by
  induction l with
  | nil => simp
  | cons a l ih => by_cases h : p a <;> simp [h] <;> omega

/-- The parts of a text between the characters `separator`; there is one more than separators. -/
def splitAt (separator : Char) : List Char → List (List Char)
  | [] => [[]]
  | c :: cs =>
      if c == separator then [] :: splitAt separator cs
      else match splitAt separator cs with
        | [] => [[c]]
        | part :: parts => (c :: part) :: parts

/-- Texts with a separator between each and the next. -/
def joinWith (separator : List Char) : List (List Char) → List Char
  | [] => []
  | [part] => part
  | part :: parts => part ++ separator ++ joinWith separator parts

theorem splitAt_ne_nil (separator : Char) (s : List Char) : splitAt separator s ≠ [] := by
  cases s with
  | nil => simp [splitAt]
  | cons c cs =>
      simp only [splitAt]
      split
      · simp
      · split <;> simp

theorem not_mem_of_mem_splitAt {separator : Char} {s part : List Char}
    (mem : part ∈ splitAt separator s) : separator ∉ part := by
  induction s generalizing part with
  | nil =>
      simp only [splitAt, List.mem_singleton] at mem
      simp [mem]
  | cons c cs ih =>
      by_cases same : c = separator
      · simp only [splitAt, same, beq_self_eq_true, if_true, List.mem_cons] at mem
        rcases mem with rfl | mem
        · simp
        · exact ih mem
      · simp only [splitAt, beq_eq_false_iff_ne.2 same, Bool.false_eq_true, if_false] at mem
        cases parts : splitAt separator cs with
        | nil => exact absurd parts (splitAt_ne_nil separator cs)
        | cons first others =>
            simp only [parts, List.mem_cons] at mem ih
            rcases mem with rfl | mem
            · simp only [List.mem_cons, not_or]
              exact ⟨Ne.symm same, ih (.inl rfl)⟩
            · exact ih (.inr mem)

theorem joinWith_cons_cons (separator : List Char) (c : Char) (part : List Char)
    (parts : List (List Char)) :
    joinWith separator ((c :: part) :: parts) = c :: joinWith separator (part :: parts) := by
  cases parts <;> rfl

theorem joinWith_splitAt (separator : Char) (s : List Char) :
    joinWith [separator] (splitAt separator s) = s := by
  induction s with
  | nil => rfl
  | cons c cs ih =>
      cases parts : splitAt separator cs with
      | nil => exact absurd parts (splitAt_ne_nil separator cs)
      | cons first others =>
          rw [parts] at ih
          by_cases same : c = separator
          · simp [splitAt, same, parts, joinWith, ih]
          · simp [splitAt, same, parts, joinWith_cons_cons, ih]

theorem mem_joinWith_iff {separator : Char} {parts : List (List Char)} {c : Char}
    (other : c ≠ separator) : c ∈ joinWith [separator] parts ↔ ∃ part ∈ parts, c ∈ part := by
  induction parts with
  | nil => simp [joinWith]
  | cons part parts ih =>
      cases parts with
      | nil => simp [joinWith]
      | cons next parts =>
          rw [joinWith, List.mem_append, List.mem_append, ih]
          · simp [other]
          · simp

theorem splitAt_append {separator : Char} {part : List Char} (absent : separator ∉ part)
    (rest : List Char) :
    splitAt separator (part ++ separator :: rest) = part :: splitAt separator rest := by
  induction part with
  | nil => simp [splitAt]
  | cons c part ih =>
      rw [List.mem_cons, not_or] at absent
      simp [splitAt, Ne.symm absent.1, ih absent.2]

theorem splitAt_of_not_mem {separator : Char} {part : List Char} (absent : separator ∉ part) :
    splitAt separator part = [part] := by
  induction part with
  | nil => rfl
  | cons c part ih =>
      rw [List.mem_cons, not_or] at absent
      simp [splitAt, Ne.symm absent.1, ih absent.2]

theorem splitAt_joinWith {separator : Char} {parts : List (List Char)} (nonempty : parts ≠ [])
    (absent : ∀ part ∈ parts, separator ∉ part) :
    splitAt separator (joinWith [separator] parts) = parts := by
  induction parts with
  | nil => exact absurd rfl nonempty
  | cons part parts ih =>
      rw [List.forall_mem_cons] at absent
      cases parts with
      | nil => exact splitAt_of_not_mem absent.1
      | cons next parts =>
          have others := ih (by simp) absent.2
          rw [joinWith, List.append_assoc, List.singleton_append, splitAt_append absent.1, others]
          simp

end BraceTemplate.Text
