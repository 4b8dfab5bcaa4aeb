/-
# BraceTemplate.Proofs.Expr.Outline — what stands outside bracket steps

`outline s` is a text without its bracket steps, each taken to end where the reader of steps ends
it. A bracket that a key opens outside quotes does not count here, so no expression has a comma in
its outline, whatever its keys are (`Valid.clear`).

* `joined_inj`: texts without a separator in their outlines can be told apart between separators, in
  one way only.
-/
import BraceTemplate.Proofs.Expr.Grammar

namespace BraceTemplate

set_option autoImplicit false

namespace Expr

open Text

/-- The characters of a text that stand outside bracket steps. -/
def outline : List Char → List Char
  | [] => []
  | c :: cs =>
      if c == '[' then
        match _h : cutBracket? none cs with
        | none => []
        | some (_, after) => outline after
      else c :: outline cs
  termination_by s => s.length
  decreasing_by
    · have := length_after_cutBracket? _h
      simp only [List.length_cons]
      omega
    · simp

theorem outline_cons {c : Char} (noBracket : c ≠ '[') (s : List Char) :
    outline (c :: s) = c :: outline s := by
  rw [outline, if_neg (mt eq_of_beq noBracket)]

theorem outline_brackets {n : Nat} {inner : List Char} (inside : Bracketed n inner)
    (rest : List Char) : outline ('[' :: (inner ++ ']' :: rest)) = outline rest := by
  have cut := inside.cutBracket? rest
  rw [outline, if_pos (beq_self_eq_true '[')]
  split
  · rename_i none
    cases cut.symm.trans none
  · rename_i some
    obtain ⟨-, rfl⟩ := Prod.mk.inj (Option.some.inj (cut.symm.trans some))
    rfl

/-- A text that leaves no bracket step open and has no separator outside bracket steps. -/
def Clear (separator : Char) (w : List Char) : Prop :=
  ∃ visible, separator ∉ visible ∧ ∀ rest, outline (w ++ rest) = visible ++ outline rest

namespace Clear

variable {separator : Char} {s t : List Char}

theorem append (first : Clear separator s) (second : Clear separator t) :
    Clear separator (s ++ t) := by
  obtain ⟨visible, absent, first⟩ := first
  obtain ⟨visible', absent', second⟩ := second
  refine ⟨visible ++ visible', ?_, fun rest => ?_⟩
  · rw [List.mem_append, not_or]
    exact ⟨absent, absent'⟩
  · rw [List.append_assoc, first, second, List.append_assoc]

theorem of_not_mem (noBracket : '[' ∉ s) (absent : separator ∉ s) : Clear separator s := by
  refine ⟨s, absent, fun rest => ?_⟩
  clear absent
  induction s with
  | nil => rfl
  | cons c s ih =>
      rw [List.mem_cons, not_or] at noBracket
      rw [List.cons_append, outline_cons (Ne.symm noBracket.1), ih noBracket.2, List.cons_append]

/-- A bracket step is passed over, whatever brackets its key opens. -/
theorem brackets {n : Nat} (inside : Bracketed n s) : Clear separator ('[' :: (s ++ [']'])) := by
  refine ⟨[], List.not_mem_nil, fun rest => ?_⟩
  rw [List.cons_append, List.append_assoc, List.singleton_append, outline_brackets inside,
    List.nil_append]

end Clear

section

variable {separator : Char} (divides : Divides separator)
include divides

theorem Divides.clear_name {name : List Char} (valid : isName name = true) :
    Clear separator name :=
  .of_not_mem (not_mem_of_isName valid (by decide)) (not_mem_of_isName valid divides.noName)

theorem Divides.clear_padded {s inner : List Char} (padded : Padded s inner)
    (clear : Clear separator inner) : Clear separator s := by
  obtain ⟨before, after, rfl, blanks, blanks'⟩ := padded
  have first : Clear separator before :=
    .of_not_mem (not_mem_of_class blanks (by decide)) (not_mem_of_class blanks divides.noBlank)
  have last : Clear separator after :=
    .of_not_mem (not_mem_of_class blanks' (by decide)) (not_mem_of_class blanks' divides.noBlank)
  exact (first.append clear).append last

theorem Divides.clear_step {w : List Char} {step : Step} (reads : ReadsAs w step) :
    Clear separator w := by
  obtain ⟨n, admitted⟩ := reads
  rcases admitted.shape with ⟨word, rfl, -, continues⟩ | ⟨inner, rfl, inside⟩
  · apply Clear.of_not_mem
    · rw [List.mem_cons, not_or]
      exact ⟨by decide, not_mem_of_class continues (by decide)⟩
    · rw [List.mem_cons, not_or]
      exact ⟨divides.noDot, not_mem_of_class continues divides.noName⟩
  · exact .brackets inside

theorem Divides.clear_steps {texts : List (List Char)} {steps : List Step}
    (reads : List.Forall₂ ReadsAs texts steps) : Clear separator texts.flatten := by
  induction reads with
  | nil => exact .of_not_mem List.not_mem_nil List.not_mem_nil
  | cons first _ ih => exact (divides.clear_step first).append ih

theorem Divides.clear_modifiers (other : separator ≠ '|') {parts : List (List Char)}
    {names : List String} (modifiers : List.Forall₂ IsModifier parts names) :
    Clear separator (parts.flatMap ('|' :: ·)) := by
  have bar : Clear separator ['|'] :=
    .of_not_mem (by decide) (mt List.mem_singleton.1 other)
  induction modifiers with
  | nil => exact .of_not_mem List.not_mem_nil List.not_mem_nil
  | cons modifier _ ih =>
      exact (bar.append (divides.clear_padded modifier.2 (divides.clear_name modifier.1))).append ih

/-- No expression has a separator in its outline. -/
theorem Valid.clear (other : separator ≠ '|') {s : List Char} {e : Expr} (valid : Valid s e) :
    Clear separator s := by
  obtain ⟨path, texts, parts, rfl, padded, name, permitted, modifiers⟩ := valid
  have steps := divides.clear_steps (permitted.imp fun _ _ => Permitted.readsAs)
  have first := divides.clear_padded padded ((divides.clear_name name).append steps)
  exact first.append (divides.clear_modifiers other modifiers)

end

/-! ## Texts between separators -/

variable {separator : Char}

/-- A clear text is no beginning of another one with a separator behind it. -/
theorem Clear.not_append_separator (noBracket : separator ≠ '[') {s more : List Char}
    (clear : Clear separator s) : ¬ Clear separator (s ++ separator :: more) := by
  rintro ⟨visible', absent, whole⟩
  obtain ⟨visible, -, front⟩ := clear
  have same := whole []
  rw [List.append_nil, outline, List.append_nil, front, outline_cons noBracket] at same
  apply absent
  rw [← same]
  exact List.mem_append_right _ List.mem_cons_self

/-- The first of several clear texts with separators between them. -/
theorem Clear.eq_of_joined (noBracket : separator ≠ '[') {first first' : List Char}
    {parts parts' : List (List Char)} (clear : Clear separator first)
    (clear' : Clear separator first')
    (same : first ++ parts.flatMap (separator :: ·) = first' ++ parts'.flatMap (separator :: ·)) :
    first = first' := by
  have begins : ∀ {parts : List (List Char)} {c : Char} {more rest : List Char},
      parts.flatMap (separator :: ·) = c :: more ++ rest → c = separator := by
    rintro (_ | ⟨part, parts⟩) c more rest equal
    · cases equal
    · exact (List.cons.inj equal).1.symm
  -- The longer of the two would have a separator behind the shorter one.
  rcases List.append_eq_append_iff.1 same with ⟨more, rfl, rest⟩ | ⟨more, rfl, rest⟩
  · cases more with
    | nil => rw [List.append_nil]
    | cons c more =>
        obtain rfl := begins rest
        exact absurd clear' (clear.not_append_separator noBracket)
  · cases more with
    | nil => rw [List.append_nil]
    | cons c more =>
        obtain rfl := begins rest
        exact absurd clear (clear'.not_append_separator noBracket)

/-- Clear texts with separators between them can be told apart in one way. -/
theorem joined_inj (noBracket : separator ≠ '[') {first first' : List Char}
    {parts parts' : List (List Char)} (clear : ∀ part ∈ first :: parts, Clear separator part)
    (clear' : ∀ part ∈ first' :: parts', Clear separator part)
    (same : first ++ parts.flatMap (separator :: ·) = first' ++ parts'.flatMap (separator :: ·)) :
    first = first' ∧ parts = parts' := by
  induction parts generalizing first first' parts' with
  | nil =>
      rw [List.forall_mem_cons] at clear clear'
      obtain rfl := clear.1.eq_of_joined noBracket clear'.1 same
      cases parts' with
      | nil => exact ⟨rfl, rfl⟩
      | cons => cases List.append_cancel_left same
  | cons part parts ih =>
      rw [List.forall_mem_cons] at clear clear'
      obtain rfl := clear.1.eq_of_joined noBracket clear'.1 same
      cases parts' with
      | nil => cases List.append_cancel_left same
      | cons part' parts' =>
          have others := (List.cons.inj (List.append_cancel_left same)).2
          obtain ⟨rfl, rfl⟩ := ih clear.2 clear'.2 others
          exact ⟨rfl, rfl⟩

end Expr

end BraceTemplate
