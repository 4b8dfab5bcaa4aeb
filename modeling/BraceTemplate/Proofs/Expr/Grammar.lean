/-
# BraceTemplate.Proofs.Expr.Grammar — how expressions are written

`Composed Spells s e` says that `s` consists of a path and of modifiers with `|` in front of each,
and that `Spells` gives the texts of the steps.

* `ofChars_eq_ok_iff`: a text is read as an expression exactly when it is composed of admitted steps
  and none of them leaves a bracket open in front of a modifier (`Valid`);
* `Divides`: the characters at which texts are divided, and what a division passes over.
-/
import BraceTemplate.Proofs.Expr.Steps

namespace BraceTemplate

set_option autoImplicit false

namespace Expr

open Text

/-- What related members of two lists have on the left holds throughout the left list. -/
theorem forall_of_forall₂ {α β : Type} {R : α → β → Prop} {P : α → Prop} {xs : List α}
    {ys : List β} (all : List.Forall₂ R xs ys) (holds : ∀ x y, R x y → P x) : ∀ x ∈ xs, P x :=
  ((List.forall₂_and_left _ _).1 (all.imp fun x y related => ⟨holds x y related, related⟩)).1

/-! ## Divisions -/

/-- A character that divides texts: it belongs to no name and no step outside quotes. -/
structure Divides (separator : Char) : Prop where
  plain : isPlain separator = true
  noDot : separator ≠ '.'
  noBlank : isBlank separator = false
  noName : continuesName separator = false

theorem Divides.bar : Divides '|' :=
  ⟨by decide, by decide, by decide, by decide⟩

theorem Divides.comma : Divides ',' :=
  ⟨by decide, by decide, by decide, by decide⟩

section

variable {separator : Char} (divides : Divides separator)
include divides

theorem Divides.passes_blanks {s : List Char} (blanks : ∀ c ∈ s, isBlank c = true) :
    Passes separator 0 s :=
  .of_plain (fun c mem => isPlain_of_isBlank (blanks c mem))
    (not_mem_of_class blanks divides.noBlank)

theorem Divides.passes_name {name : List Char} (valid : isName name = true) :
    Passes separator 0 name :=
  .of_plain (fun c mem => isPlain_of_continuesName (continuesName_of_isName valid c mem))
    (not_mem_of_isName valid divides.noName)

theorem Divides.passes_padded {n : Nat} {s inner : List Char} (padded : Padded s inner)
    (passes : Passes separator n inner) : Passes separator n s := by
  obtain ⟨before, after, rfl, blanks, blanks'⟩ := padded
  have front := (divides.passes_blanks blanks).append passes
  have whole := front.append (divides.passes_blanks blanks')
  rwa [Nat.zero_add] at whole

theorem Divides.passes_step {n : Nat} {w : List Char} {step : Step}
    (admitted : Step.Admitted n w step) : Passes separator n w := by
  rcases admitted.shape with ⟨word, rfl, rfl, continues⟩ | ⟨inner, rfl, inside⟩
  · have plain : ∀ c ∈ '.' :: word, isPlain c = true := by
      intro c mem
      rcases List.mem_cons.1 mem with rfl | mem
      · decide
      · exact isPlain_of_continuesName (continues c mem)
    apply Passes.of_plain plain
    rw [List.mem_cons, not_or]
    exact ⟨divides.noDot, not_mem_of_class continues divides.noName⟩
  · exact .brackets inside

theorem Divides.exists_passes {texts : List (List Char)} {steps : List Step}
    (reads : List.Forall₂ ReadsAs texts steps) :
    ∃ n, Passes separator n texts.flatten ∧
      (n = 0 → List.Forall₂ (Step.Admitted 0) texts steps) := by
  induction reads with
  | nil => exact ⟨0, .nil, fun _ => .nil⟩
  | cons first _ ih =>
      obtain ⟨m, admitted⟩ := first
      obtain ⟨n, passes, closed⟩ := ih
      refine ⟨m + n, (divides.passes_step admitted).append passes, fun none => ?_⟩
      obtain ⟨rfl, rfl⟩ := Nat.add_eq_zero_iff.1 none
      exact .cons admitted (closed rfl)

theorem Divides.passes_steps {texts : List (List Char)} {steps : List Step}
    (admitted : List.Forall₂ (Step.Admitted 0) texts steps) :
    Passes separator 0 texts.flatten := by
  induction admitted with
  | nil => exact .nil
  | cons first _ ih => exact (divides.passes_step first).append ih

/-- A path leaves open what its steps leave open. -/
theorem Divides.passes_path {n : Nat} {path root steps : List Char} (name : isName root = true)
    (padded : Padded path (root ++ steps)) (passes : Passes separator n steps) :
    Passes separator n path := by
  have whole := (divides.passes_name name).append passes
  rw [Nat.zero_add] at whole
  exact divides.passes_padded padded whole

theorem Divides.passes_modifier {s : List Char} {name : String} (modifier : IsModifier s name) :
    Passes separator 0 s :=
  divides.passes_padded modifier.2 (divides.passes_name modifier.1)

end

/-! ## Whole texts -/

/-- A text with a path, which may have blanks around it, and modifiers behind it. -/
def Composed (Spells : List Char → Step → Prop) (s : List Char) (e : Expr) : Prop :=
  ∃ path texts parts, s = path ++ parts.flatMap ('|' :: ·) ∧
    Padded path (e.root.toList ++ texts.flatten) ∧ isName e.root.toList = true ∧
    List.Forall₂ Spells texts e.steps ∧ List.Forall₂ IsModifier parts e.modifiers

theorem Composed.mono {Spells Spells' : List Char → Step → Prop} {s : List Char} {e : Expr}
    (composed : Composed Spells s e) (weaker : ∀ w step, Spells w step → Spells' w step) :
    Composed Spells' s e := by
  obtain ⟨path, texts, parts, whole, padded, name, steps, modifiers⟩ := composed
  exact ⟨path, texts, parts, whole, padded, name, steps.imp weaker, modifiers⟩

theorem isName_of_modifiers {parts : List (List Char)} {names : List String}
    (modifiers : List.Forall₂ IsModifier parts names) : ∀ m ∈ names, isName m.toList = true :=
  forall_of_forall₂ modifiers.flip fun _ _ modifier => modifier.1

theorem Divides.passes_modifiers {separator : Char} (divides : Divides separator)
    (other : separator ≠ '|') {parts : List (List Char)} {names : List String}
    (modifiers : List.Forall₂ IsModifier parts names) :
    Passes separator 0 (parts.flatMap ('|' :: ·)) := by
  have bar : Passes separator 0 ['|'] := .single Divides.bar.plain other
  induction modifiers with
  | nil => exact .nil
  | cons modifier _ ih => exact (bar.append (divides.passes_modifier modifier)).append ih

/-- A division at another character finds nothing in an expression. -/
theorem Composed.passes {separator : Char} (divides : Divides separator) (other : separator ≠ '|')
    {s : List Char} {e : Expr} (composed : Composed (Step.Admitted 0) s e) :
    Passes separator 0 s := by
  obtain ⟨path, texts, parts, rfl, padded, name, admitted, modifiers⟩ := composed
  have first : Passes separator 0 path :=
    divides.passes_path name padded (divides.passes_steps admitted)
  exact first.append (divides.passes_modifiers other modifiers)

/-- The steps that may stand in a text: none leaves a bracket open in front of a modifier. -/
def Permitted (modifiers : List String) (w : List Char) (step : Step) : Prop :=
  ∃ n, Step.Admitted n w step ∧ (n = 0 ∨ modifiers = [])

theorem Permitted.of_closed {modifiers : List String} {w : List Char} {step : Step}
    (admitted : Step.Admitted 0 w step) : Permitted modifiers w step :=
  ⟨0, admitted, .inl rfl⟩

theorem Permitted.readsAs {modifiers : List String} {w : List Char} {step : Step}
    (permitted : Permitted modifiers w step) : ReadsAs w step := by
  obtain ⟨n, admitted, -⟩ := permitted
  exact ⟨n, admitted⟩

theorem Permitted.closed {modifiers : List String} {w : List Char} {step : Step}
    (permitted : Permitted modifiers w step) (some : modifiers ≠ []) : Step.Admitted 0 w step := by
  obtain ⟨n, admitted, rfl | none⟩ := permitted
  · exact admitted
  · exact absurd none some

/-- A text that is an expression. -/
def Valid (s : List Char) (e : Expr) : Prop :=
  Composed (Permitted e.modifiers) s e

theorem Valid.of_closed {s : List Char} {e : Expr} (composed : Composed (Step.Admitted 0) s e) :
    Valid s e :=
  composed.mono fun _ _ => .of_closed

/-- What an expression leaves open for a division, at whatever character. -/
theorem Valid.exists_passes {separator : Char} (divides : Divides separator)
    (other : separator ≠ '|') {s : List Char} {e : Expr} (valid : Valid s e) :
    ∃ n, Passes separator n s ∧ (n = 0 → Composed (Step.Admitted 0) s e) := by
  obtain ⟨path, texts, parts, rfl, padded, name, permitted, modifiers⟩ := valid
  have reads : List.Forall₂ ReadsAs texts e.steps := permitted.imp fun _ _ => Permitted.readsAs
  obtain ⟨n, passes, closed⟩ := divides.exists_passes reads
  refine ⟨n, ?_, fun none => ⟨path, texts, parts, rfl, padded, name, closed none, modifiers⟩⟩
  exact (divides.passes_path name padded passes).append (divides.passes_modifiers other modifiers)

theorem ofChars_eq_ok_iff_readParts {s : List Char} {e : Expr} :
    ofChars s = .ok e ↔ readParts (splitOutside '|' 0 none s) = .ok e := by
  rw [ofChars]
  cases readParts (splitOutside '|' 0 none s) <;> simp [Except.mapError]

/-- **What an expression is.** -/
theorem ofChars_eq_ok_iff {s : List Char} {e : Expr} : ofChars s = .ok e ↔ Valid s e := by
  rw [ofChars_eq_ok_iff_readParts]
  constructor
  · intro read
    obtain ⟨path, parts, divided, whole⟩ := exists_parts '|' 0 none s
    rw [divided, readParts_eq_ok_iff] at read
    obtain ⟨texts, padded, name, reads, modifiers⟩ := read
    refine ⟨path, texts, parts, whole, padded, name, ?_, modifiers⟩
    cases parts with
    | nil =>
        have none : e.modifiers = [] := List.forall₂_nil_left_iff.1 modifiers
        exact reads.imp fun w step ⟨n, admitted⟩ => ⟨n, admitted, .inr none⟩
    | cons part parts =>
        -- A division that finds a modifier has no bracket open behind the path.
        obtain ⟨n, passes, closed⟩ := Divides.bar.exists_passes reads
        have passesPath : Passes '|' n path := Divides.bar.passes_path name padded passes
        rw [whole] at divided
        have none : n = 0 := passesPath.eq_zero Divides.bar.plain divided
        exact (closed none).imp fun _ _ => .of_closed
  · rintro ⟨path, texts, parts, rfl, padded, name, permitted, modifiers⟩
    have reads : List.Forall₂ ReadsAs texts e.steps := permitted.imp fun _ _ => Permitted.readsAs
    have passes : ∃ n, Passes '|' n texts.flatten ∧ (n = 0 ∨ parts = []) := by
      by_cases none : e.modifiers = []
      · rw [none, List.forall₂_nil_right_iff] at modifiers
        obtain ⟨n, passes, -⟩ := Divides.bar.exists_passes reads
        exact ⟨n, passes, .inr modifiers⟩
      · exact ⟨0, Divides.bar.passes_steps (permitted.imp fun _ _ found => found.closed none),
          .inl rfl⟩
    obtain ⟨n, passes, closed⟩ := passes
    have passesPath : Passes '|' n path := Divides.bar.passes_path name padded passes
    have passesParts : ∀ part ∈ parts, Passes '|' 0 part :=
      forall_of_forall₂ modifiers fun _ _ => Divides.bar.passes_modifier
    rw [splitOutside_joined Divides.bar.plain passesPath passesParts closed, readParts_eq_ok_iff]
    exact ⟨texts, padded, name, reads, modifiers⟩

theorem parse_eq_ok_iff {text : String} {e : Expr} :
    parse text = .ok e ↔ Valid text.toList e :=
  ofChars_eq_ok_iff

end Expr

end BraceTemplate
