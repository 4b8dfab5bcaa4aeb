/-
# BraceTemplate.Proofs.Expr.Printing — reading what was written

`Expr.text` writes a key that is no name in single quotes, or in double quotes if there is a single
quote in it. What is written so is read back as it was unless a key has both quotes in it: the key
reaches to the last quote of its step, so whether the step ends where it should depends on how the
quotes in the key pair up.

* `Step.Admitted.eq_chars`: of the spellings of a step, a text can begin with the written one only;
* `permitted_chars_iff`: when the written form of a step is one of its spellings;
* `parse_text_iff`: an expression is read back exactly if it is `Printable`.
-/
import BraceTemplate.Proofs.Expr.Writing

namespace BraceTemplate

set_option autoImplicit false

open Text

namespace Step

/-- The quotes around a key that is no name. -/
def quoteOf (key : String) : Char :=
  if key.toList.contains '\'' then '"' else '\''

theorem isQuote_quoteOf (key : String) : Expr.isQuote (quoteOf key) = true := by
  rw [quoteOf]
  split <;> decide

theorem chars_index (i : UInt64) : chars (.index i) = '[' :: (digits i ++ [']']) :=
  rfl

theorem chars_of_isName {key : String} (name : isName key.toList = true) :
    chars (.key key) = '.' :: key.toList := by
  rw [chars, if_pos name]

theorem chars_of_not_isName {key : String} (noName : ¬ isName key.toList = true) :
    chars (.key key) = '[' :: (quoteOf key :: (key.toList ++ [quoteOf key]) ++ [']']) := by
  rw [chars, if_neg noName, quoteOf]
  split <;> simp

/-- Of the texts that are read as a step only the written one can begin a text that begins with
it. -/
theorem Admitted.eq_chars {n : Nat} {w rest rest' : List Char} {step : Step}
    (admitted : Admitted n w step) (same : w ++ rest = step.chars ++ rest') :
    w = step.chars := by
  cases admitted with
  | name valid => rw [chars_of_isName valid]
  | dotted => cases (List.cons.inj same).1
  | @index digits' inner i denotes padded =>
      have absent : ']' ∉ inner :=
        padded.not_mem (by decide) (not_mem_of_isDigits denotes.2.1 (by decide))
      have absent' : ']' ∉ digits i :=
        not_mem_of_isDigits (isDigits_digits 0 i.toNat) (by decide)
      simp only [chars_index, List.cons_append, List.append_assoc, List.nil_append, List.cons.injEq,
        true_and] at same
      rw [(append_cons_inj absent absent' same).1, chars_index]
  | @quoted _ key q inner quote padded inside =>
      by_cases name : isName key.toList = true
      · rw [chars_of_isName name] at same
        cases (List.cons.inj same).1
      · rw [chars_of_not_isName name] at same ⊢
        obtain ⟨before, after, rfl, blanks, blanks'⟩ := padded
        simp only [List.append_assoc, List.cons_append, List.nil_append, List.cons.injEq,
          true_and] at same
        -- The written quotes have no blanks around them.
        have noBlank : isBlank (quoteOf key) = false :=
          Expr.isBlank_of_isQuote (isQuote_quoteOf key)
        obtain rfl := eq_nil_of_blanks blanks noBlank same
        obtain ⟨rfl, behind⟩ := List.cons.inj same
        obtain ⟨-, behind⟩ := List.cons.inj (List.append_cancel_left behind)
        obtain rfl := eq_nil_of_blanks blanks' (by decide) behind
        simp

end Step

namespace Expr

/-- The keys with a single quote in them close all quotes, and all brackets outside quotes if there
are modifiers, where they stand in double quotes. -/
def Printable (e : Expr) : Prop :=
  ∀ key, .key key ∈ e.steps → '\'' ∈ key.toList →
    ∃ n, Bracketed n ('"' :: (key.toList ++ ['"'])) ∧ (n = 0 ∨ e.modifiers = [])

/-- A step is read back if it closes what it opens. -/
theorem permitted_chars_iff {modifiers : List String} {step : Step} :
    Permitted modifiers step.chars step ↔ ∀ key, step = .key key → '\'' ∈ key.toList →
      ∃ n, Bracketed n ('"' :: (key.toList ++ ['"'])) ∧ (n = 0 ∨ modifiers = []) := by
  constructor
  · rintro ⟨n, admitted, closed⟩ key rfl single
    have noName : ¬ isName key.toList = true :=
      fun name => not_mem_of_isName name (by decide) single
    have double : Step.quoteOf key = '"' := if_pos (List.contains_iff_mem.2 single)
    rw [Step.chars_of_not_isName noName, double] at admitted
    exact ⟨n, admitted.bracketed, closed⟩
  · intro closes
    cases step with
    | index i => exact .of_closed (.index (denotes_digits 0 i) (.refl _))
    | key key =>
        by_cases name : isName key.toList = true
        · rw [Step.chars_of_isName name]
          exact .of_closed (.name name)
        · rw [Step.chars_of_not_isName name]
          by_cases single : '\'' ∈ key.toList
          · obtain ⟨n, inside, closed⟩ := closes key rfl single
            have double : Step.quoteOf key = '"' := if_pos (List.contains_iff_mem.2 single)
            rw [double]
            exact ⟨n, .quoted (by decide) (.refl _) inside, closed⟩
          · have quote : Step.quoteOf key = '\'' := if_neg (mt List.contains_iff_mem.1 single)
            rw [quote]
            exact .of_closed (.quoted (by decide) (.refl _) (.of_quoted (by decide) single))

/-- Steps that were written one behind the other can be told apart. -/
theorem texts_eq_chars {texts : List (List Char)} {steps : List Step} {rest rest' : List Char}
    (reads : List.Forall₂ ReadsAs texts steps)
    (same : texts.flatten ++ rest = steps.flatMap Step.chars ++ rest') :
    texts = steps.map Step.chars := by
  induction reads with
  | nil => rfl
  | @cons w step texts steps first _ ih =>
      obtain ⟨n, admitted⟩ := first
      rw [List.flatten_cons, List.flatMap_cons, List.append_assoc, List.append_assoc] at same
      obtain rfl := admitted.eq_chars same
      rw [List.map_cons, ih (List.append_cancel_left same)]

theorem composed_chars_iff {e : Expr} (name : isName e.root.toList = true)
    (names : ∀ m ∈ e.modifiers, isName m.toList = true) :
    Composed (Permitted e.modifiers) e.chars e ↔
      ∀ step ∈ e.steps, Permitted e.modifiers step.chars step := by
  constructor
  · rintro ⟨path, texts, parts, whole, ⟨before, after, rfl, blanks, -⟩, -, permitted, -⟩
    rw [chars, pathChars] at whole
    -- The root begins the text, with no blanks in front.
    simp only [List.append_assoc] at whole
    obtain ⟨c, root, shape⟩ := List.exists_cons_of_ne_nil (ne_nil_of_isName name)
    have noBlank : isBlank c = false := (solid_of_isName name).1 c (by rw [shape]; rfl)
    have begins := whole.symm
    rw [shape, List.cons_append] at begins
    obtain rfl := eq_nil_of_blanks blanks noBlank begins
    have texts_eq := texts_eq_chars (permitted.imp fun _ _ => Permitted.readsAs)
      (List.append_cancel_left whole.symm)
    rw [texts_eq, List.forall₂_map_left_iff, List.forall₂_same] at permitted
    exact permitted
  · intro permitted
    refine ⟨e.pathChars, e.steps.map Step.chars, e.modifiers.map String.toList, ?_, ?_, name, ?_,
      ?_⟩
    · rw [chars, List.flatMap_map]
    · rw [pathChars, List.flatMap_def]
      exact .refl _
    · exact List.forall₂_map_left_iff.2 (List.forall₂_same.2 permitted)
    · exact List.forall₂_map_left_iff.2 (List.forall₂_same.2 fun m mem => ⟨names m mem, .refl _⟩)

theorem printable_iff {e : Expr} :
    e.Printable ↔ ∀ step ∈ e.steps, Permitted e.modifiers step.chars step := by
  simp only [permitted_chars_iff]
  constructor
  · rintro printable step mem key rfl
    exact printable key mem
  · intro closes key mem
    exact closes _ mem key rfl

/-- A key without one of the quotes stands in this quote, or in the other one. -/
theorem printable_of_quote {e : Expr}
    (quote : ∀ key, .key key ∈ e.steps → '\'' ∉ key.toList ∨ '"' ∉ key.toList) : e.Printable := by
  intro key mem single
  have double : '"' ∉ key.toList := (quote key mem).resolve_left (not_not_intro single)
  exact ⟨0, .of_quoted (by decide) double, .inl rfl⟩

/-- **When an expression is read back.** What a text denotes is written so that it is read as the
same expression if no key has both quotes in it, and otherwise exactly if its quotes pair up. -/
theorem parse_text_iff {text : String} {e : Expr} (read : parse text = .ok e) :
    (parse e.text = .ok e ↔ e.Printable) ∧
      ((∀ key, .key key ∈ e.steps → '\'' ∉ key.toList ∨ '"' ∉ key.toList) →
        parse e.text = .ok e) := by
  obtain ⟨_, _, _, _, _, name, _, modifiers⟩ := parse_eq_ok_iff.1 read
  have back : parse e.text = .ok e ↔ e.Printable := by
    rw [parse_eq_ok_iff, Expr.text, String.toList_ofList, Valid,
      composed_chars_iff name (isName_of_modifiers modifiers), printable_iff]
  exact ⟨back, fun quote => back.2 (printable_of_quote quote)⟩

theorem parse_text_iff_quote :
    parse "m[ \"it's\" ].k | trim" = .ok ⟨"m", [.key "it's", .key "k"], ["trim"]⟩ ∧
      parse (Expr.text ⟨"m", [.key "it's", .key "k"], ["trim"]⟩) =
        .ok ⟨"m", [.key "it's", .key "k"], ["trim"]⟩ := by
  have read : parse "m[ \"it's\" ].k | trim" = .ok ⟨"m", [.key "it's", .key "k"], ["trim"]⟩ := by
    cbv
  have quote : ∀ key, .key key ∈ [Step.key "it's", .key "k"] →
      '\'' ∉ key.toList ∨ '"' ∉ key.toList := by
    intro key mem
    rcases List.mem_pair.1 mem with same | same
    · obtain rfl := Step.key.inj same
      exact .inr (by decide)
    · obtain rfl := Step.key.inj same
      exact .inl (by decide)
  exact ⟨read, (parse_text_iff read).2 quote⟩

/-- The quotes of a key that ends one quote and begins another do not pair up in other quotes. -/
theorem parse_text_ne :
    parse "m['a'\"'\"'b']" = .ok ⟨"m", [.key "a'\"'\"'b"], []⟩ ∧
      parse (Expr.text ⟨"m", [.key "a'\"'\"'b"], []⟩) =
        .error ⟨"m[\"a'\"'\"'b\"]", .unclosedBracket⟩ := by
  have written : Expr.text ⟨"m", [.key "a'\"'\"'b"], []⟩ = "m[\"a'\"'\"'b\"]" := by decide
  rw [written]
  constructor
  · cbv
  · cbv

end Expr

end BraceTemplate
