/-
# BraceTemplate.Proofs.Expr.Steps — how steps, paths and modifiers are written

`Step.Admitted n w step` says that the text `w` is read as a step, and that a division at separators
counts `n` brackets open behind it. The readers of expressions accept exactly such texts:

* `readDotted_eq_ok_iff`, `readBracketed_trim_eq_ok_iff`: one step;
* `readSteps_eq_ok_iff`: steps, one behind the other;
* `readParts_eq_ok_iff`: a path and modifiers, given one by one.
-/
import Mathlib.Data.List.Forall2
import BraceTemplate.Proofs.Expr.Brackets

namespace BraceTemplate

set_option autoImplicit false

open Text

/-- A computation in two parts gives a result if both parts do. -/
theorem bind_eq_ok_iff {ε α β : Type} {x : Except ε α} {f : α → Except ε β} {b : β} :
    x >>= f = .ok b ↔ ∃ a, x = .ok a ∧ f a = .ok b := by
  cases x with
  | error => exact ⟨nofun, nofun⟩
  | ok a => exact ⟨fun same => ⟨a, rfl, same⟩, fun ⟨_, same, found⟩ => Except.ok.inj same ▸ found⟩

/-- Digits that denote an index; leading zeros do not matter. -/
def Denotes (digits : List Char) (i : UInt64) : Prop :=
  digits ≠ [] ∧ isDigits digits = true ∧ valueOf digits = i.toNat

/-- The texts that are read as a step, each with the number of brackets that it leaves open for a
division. A quoted key reaches to the last quote of the step; `Expr.Bracketed` says where the step
ends. -/
inductive Step.Admitted : Nat → List Char → Step → Prop where
  | name {key : String} (valid : isName key.toList = true) :
      Admitted 0 ('.' :: key.toList) (.key key)
  | dotted {digits : List Char} {i : UInt64} (denotes : Denotes digits i) :
      Admitted 0 ('.' :: digits) (.index i)
  | quoted {n : Nat} {key : String} {q : Char} {inner : List Char} (quote : Expr.isQuote q = true)
      (padded : Padded inner (q :: (key.toList ++ [q]))) (inside : Expr.Bracketed n inner) :
      Admitted n ('[' :: (inner ++ [']'])) (.key key)
  | index {digits inner : List Char} {i : UInt64} (denotes : Denotes digits i)
      (padded : Padded inner digits) : Admitted 0 ('[' :: (inner ++ [']'])) (.index i)

/-- The digits of an index between brackets. -/
theorem Denotes.bracketed {digits inner : List Char} {i : UInt64} (denotes : Denotes digits i)
    (padded : Padded inner digits) : Expr.Bracketed 0 inner := by
  have plain : ∀ c ∈ digits, Expr.isPlain c = true := fun c mem =>
    Expr.isPlain_of_continuesName (continuesName_of_isDigits denotes.2.1 c mem)
  exact (Expr.Bracketed.of_plain plain).padded padded

/-- A step is a word behind a dot or a bracketed text. -/
theorem Step.Admitted.shape {n : Nat} {w : List Char} {step : Step}
    (admitted : Step.Admitted n w step) :
    (∃ word, w = '.' :: word ∧ n = 0 ∧ ∀ c ∈ word, continuesName c = true) ∨
      ∃ inner, w = '[' :: (inner ++ [']']) ∧ Expr.Bracketed n inner := by
  cases admitted with
  | name valid => exact .inl ⟨_, rfl, rfl, continuesName_of_isName valid⟩
  | dotted denotes => exact .inl ⟨_, rfl, rfl, continuesName_of_isDigits denotes.2.1⟩
  | quoted quote padded inside => exact .inr ⟨_, rfl, inside⟩
  | index denotes padded => exact .inr ⟨_, rfl, denotes.bracketed padded⟩

theorem Step.Admitted.bracketed {n : Nat} {inner : List Char} {step : Step}
    (admitted : Step.Admitted n ('[' :: (inner ++ [']'])) step) : Expr.Bracketed n inner := by
  rcases admitted.shape with ⟨word, same, -⟩ | ⟨inner', same, inside⟩
  · cases same
  · rwa [List.append_cancel_right (List.cons.inj same).2]

namespace Expr

/-- A name with blanks around it, as modifiers are written. -/
def IsModifier (s : List Char) (name : String) : Prop :=
  isName name.toList = true ∧ Padded s name.toList

/-! ## Single steps -/

theorem readIndex_eq_ok_iff {digits : List Char} {step : Step} :
    readIndex digits = .ok step ↔ ∃ i, valueOf digits = i.toNat ∧ step = .index i := by
  rw [readIndex]
  constructor
  · intro read
    split at read
    · rename_i small
      exact ⟨_, UInt64.toNat_ofNatLT.symm, (Except.ok.inj read).symm⟩
    · cases read
  · rintro ⟨i, value, rfl⟩
    have small : valueOf digits < UInt64.size := value ▸ i.toNat_lt
    have same : UInt64.ofNatLT (valueOf digits) small = i :=
      UInt64.toNat.inj (UInt64.toNat_ofNatLT.trans value)
    rw [dif_pos small, same]

theorem readDotted_eq_ok_iff {s : List Char} {step : Step} :
    readDotted s = .ok step ↔ Step.Admitted 0 ('.' :: s) step := by
  rw [readDotted]
  constructor
  · intro read
    split at read
    · cases read
    · rename_i nonempty
      split at read
      · rename_i digits
        obtain ⟨i, value, rfl⟩ := readIndex_eq_ok_iff.1 read
        exact .dotted ⟨mt List.isEmpty_iff.2 nonempty, digits, value⟩
      · split at read
        · rename_i name
          obtain rfl := Except.ok.inj read
          rw [← String.toList_ofList (l := s)] at name
          have admitted := Step.Admitted.name name
          rwa [String.toList_ofList] at admitted
        · cases read
  · intro admitted
    cases admitted with
    | @name key valid =>
        rw [if_neg (mt List.isEmpty_iff.1 (ne_nil_of_isName valid)), isDigits_of_isName valid,
          if_neg Bool.false_ne_true, if_pos valid, String.ofList_toList]
    | dotted denotes =>
        obtain ⟨nonempty, digits, value⟩ := denotes
        rw [if_neg (mt List.isEmpty_iff.1 nonempty), if_pos digits]
        exact readIndex_eq_ok_iff.2 ⟨_, value, rfl⟩

theorem unquoteEnd?_eq_some_iff {q : Char} {s key : List Char} :
    unquoteEnd? q s = some key ↔ s = key ++ [q] := by
  rw [unquoteEnd?]
  constructor
  · intro found
    split at found
    · rename_i last
      obtain rfl := Option.some.inj found
      exact (List.dropLast_append_getLast? q last).symm
    · cases found
  · rintro rfl
    rw [List.getLast?_concat, if_pos rfl, List.dropLast_concat]

theorem isQuote_of_isDigit {c : Char} (digit : c.isDigit = true) : isQuote c = false := by
  have continues : continuesName c = true := continuesName_iff.2 (.inl (.inr digit))
  exact (isPlain_iff.1 (isPlain_of_continuesName continues)).1

theorem readBracketed_eq_ok_iff {s : List Char} {step : Step} :
    readBracketed s = .ok step ↔
      (∃ q key, isQuote q = true ∧ s = q :: (key ++ [q]) ∧ step = .key (String.ofList key)) ∨
        ∃ i, Denotes s i ∧ step = .index i := by
  cases s with
  | nil =>
      constructor
      · nofun
      · rintro (⟨_, _, _, same, -⟩ | ⟨i, ⟨nonempty, -⟩, -⟩)
        · cases same
        · exact absurd rfl nonempty
  | cons c cs =>
      rw [readBracketed]
      constructor
      · intro read
        split at read
        · rename_i quote
          split at read
          · rename_i key found
            exact .inl ⟨c, key, quote, congrArg _ (unquoteEnd?_eq_some_iff.1 found),
              (Except.ok.inj read).symm⟩
          · cases read
        · split at read
          · rename_i digits
            obtain ⟨i, value, rfl⟩ := readIndex_eq_ok_iff.1 read
            exact .inr ⟨i, ⟨List.cons_ne_nil _ _, digits, value⟩, rfl⟩
          · cases read
      · rintro (⟨q, key, quote, same, rfl⟩ | ⟨i, ⟨-, digits, value⟩, rfl⟩)
        · obtain ⟨rfl, rfl⟩ := List.cons.inj same
          rw [if_pos quote, unquoteEnd?_eq_some_iff.2 rfl]
        · have digit : c.isDigit = true := List.all_eq_true.1 digits c List.mem_cons_self
          rw [isQuote_of_isDigit digit, if_neg Bool.false_ne_true, if_pos digits]
          exact readIndex_eq_ok_iff.2 ⟨i, value, rfl⟩

/-- What is read between brackets, and the texts of the whole step. -/
theorem readBracketed_trim_eq_ok_iff {n : Nat} {inner : List Char} (inside : Bracketed n inner)
    {step : Step} :
    readBracketed (trim inner) = .ok step ↔
      ∃ n, Step.Admitted n ('[' :: (inner ++ [']'])) step := by
  rw [readBracketed_eq_ok_iff]
  constructor
  · rintro (⟨q, key, quote, same, rfl⟩ | ⟨i, denotes, rfl⟩)
    · have padded : Padded inner (q :: ((String.ofList key).toList ++ [q])) := by
        rw [String.toList_ofList, ← same]
        exact .of_trim inner
      exact ⟨n, .quoted quote padded inside⟩
    · exact ⟨0, .index denotes (.of_trim inner)⟩
  · rintro ⟨m, admitted⟩
    generalize whole : '[' :: (inner ++ [']']) = w at admitted
    cases admitted with
    | name | dotted => cases whole
    | @quoted _ key q inner' quote padded =>
        obtain rfl := List.append_cancel_right (List.cons.inj whole).2
        have noBlank := isBlank_of_isQuote quote
        have same := (trim_eq_iff (.between noBlank noBlank _)).2 padded
        exact .inl ⟨q, key.toList, quote, same, by rw [String.ofList_toList]⟩
    | @index digits inner' i denotes padded =>
        obtain rfl := List.append_cancel_right (List.cons.inj whole).2
        have same := (trim_eq_iff (solid_of_isDigits denotes.2.1)).2 padded
        exact .inr ⟨i, same.symm ▸ denotes, rfl⟩

/-! ## Lists of steps -/

/-- A text that is read as a step, whatever it leaves open. -/
def ReadsAs (w : List Char) (step : Step) : Prop :=
  ∃ n, Step.Admitted n w step

theorem ReadsAs.begins {w : List Char} {step : Step} (reads : ReadsAs w step) (rest : List Char) :
    ∀ c ∈ (w ++ rest).head?, beginsStep c = true := by
  obtain ⟨n, admitted⟩ := reads
  rcases admitted.shape with ⟨word, rfl, -⟩ | ⟨inner, rfl, -⟩
  · rintro _ ⟨⟩
    decide
  · rintro _ ⟨⟩
    decide

/-- Steps, one behind the other, begin with a dot or a bracket. -/
theorem begins_flatten {texts : List (List Char)} {steps : List Step}
    (reads : List.Forall₂ ReadsAs texts steps) :
    ∀ c ∈ texts.flatten.head?, beginsStep c = true := by
  cases reads with
  | nil => nofun
  | cons first _ => exact first.begins _

/-- A word without dots and brackets ends where the next step begins. -/
theorem takeWhile_append_dropWhile_word {word rest : List Char}
    (plain : ∀ c ∈ word, beginsStep c = false)
    (begins : ∀ c ∈ rest.head?, beginsStep c = true) :
    (word ++ rest).takeWhile (!beginsStep ·) = word ∧
      (word ++ rest).dropWhile (!beginsStep ·) = rest := by
  have inWord : ∀ c ∈ word, (!beginsStep c) = true := by
    intro c mem
    rw [plain c mem]
    rfl
  rw [List.takeWhile_append_of_pos inWord, List.dropWhile_append_of_pos inWord]
  cases rest with
  | nil => simp
  | cons c rest => simp [begins c rfl]

theorem beginsStep_of_continuesName {c : Char} (continues : continuesName c = true) :
    beginsStep c = false := by
  rw [beginsStep, Bool.or_eq_false_iff, beq_eq_false_iff_ne, beq_eq_false_iff_ne]
  constructor <;> rintro rfl <;> revert continues <;> decide

/-- A word behind a dot is one step. -/
theorem readSteps_dotted {word rest : List Char} (continues : ∀ c ∈ word, continuesName c = true)
    (begins : ∀ c ∈ rest.head?, beginsStep c = true) :
    readSteps ('.' :: (word ++ rest)) = readDotted word >>= fun step =>
      readSteps rest >>= fun steps => pure (step :: steps) := by
  obtain ⟨word_eq, rest_eq⟩ := takeWhile_append_dropWhile_word
    (fun c mem => beginsStep_of_continuesName (continues c mem)) begins
  rw [readSteps, if_pos (beq_self_eq_true '.'), word_eq, rest_eq]

/-- A bracketed text is one step. -/
theorem readSteps_bracketed {n : Nat} {inner : List Char} (inside : Bracketed n inner)
    (rest : List Char) :
    readSteps ('[' :: (inner ++ ']' :: rest)) = readBracketed (trim inner) >>= fun step =>
      readSteps rest >>= fun steps => pure (step :: steps) := by
  have noDot : ¬ ('[' == '.') = true := by decide
  have cut := inside.cutBracket? rest
  rw [readSteps, if_neg noDot, if_pos (beq_self_eq_true '[')]
  split
  · rename_i none
    rw [cut] at none
    cases none
  · rename_i some
    rw [cut] at some
    obtain ⟨rfl, rfl⟩ := Prod.mk.inj (Option.some.inj some)
    rfl

theorem readSteps_append {w rest : List Char} {step : Step} (reads : ReadsAs w step)
    (begins : ∀ c ∈ rest.head?, beginsStep c = true) :
    readSteps (w ++ rest) = readSteps rest >>= fun steps => pure (step :: steps) := by
  obtain ⟨n, admitted⟩ := reads
  rcases admitted.shape with ⟨word, rfl, rfl, continues⟩ | ⟨inner, rfl, inside⟩
  · rw [List.cons_append, readSteps_dotted continues begins, readDotted_eq_ok_iff.2 admitted]
    rfl
  · rw [List.cons_append, List.append_assoc, List.singleton_append, readSteps_bracketed inside,
      (readBracketed_trim_eq_ok_iff inside).2 ⟨n, admitted⟩]
    rfl

theorem readSteps_eq_ok_iff {s : List Char} {steps : List Step} :
    readSteps s = .ok steps ↔ ∃ texts, s = texts.flatten ∧ List.Forall₂ ReadsAs texts steps := by
  constructor
  · intro read
    induction s using readSteps.induct generalizing steps with
    | case1 =>
        rw [readSteps] at read
        obtain rfl := Except.ok.inj read
        exact ⟨[], rfl, .nil⟩
    | case2 c cs isDot ih =>
        rw [readSteps, if_pos isDot, bind_eq_ok_iff] at read
        obtain ⟨step, first, read⟩ := read
        obtain ⟨steps', later, same⟩ := bind_eq_ok_iff.1 read
        obtain rfl := Except.ok.inj same
        obtain ⟨texts, shape, others⟩ := ih later
        refine ⟨('.' :: cs.takeWhile (!beginsStep ·)) :: texts, ?_,
          .cons ⟨0, readDotted_eq_ok_iff.1 first⟩ others⟩
        rw [List.flatten_cons, ← shape, List.cons_append, List.takeWhile_append_dropWhile,
          eq_of_beq isDot]
    | case3 c cs noDot isBracket cut =>
        rw [readSteps, if_neg noDot, if_pos isBracket] at read
        split at read
        · cases read
        · rename_i some
          rw [cut] at some
          cases some
    | case4 c cs noDot isBracket inner after cut ih =>
        rw [readSteps, if_neg noDot, if_pos isBracket] at read
        split at read
        · cases read
        · rename_i some
          rw [cut] at some
          obtain ⟨rfl, rfl⟩ := Prod.mk.inj (Option.some.inj some)
          obtain ⟨step, first, read⟩ := bind_eq_ok_iff.1 read
          obtain ⟨steps', later, same⟩ := bind_eq_ok_iff.1 read
          obtain rfl := Except.ok.inj same
          obtain ⟨texts, shape, others⟩ := ih later
          obtain ⟨rfl, n, inside⟩ := cutBracket?_eq_some_iff.1 cut
          refine ⟨('[' :: (inner ++ [']'])) :: texts, ?_,
            .cons ((readBracketed_trim_eq_ok_iff inside).1 first) others⟩
          rw [List.flatten_cons, ← shape, eq_of_beq isBracket]
          simp
    | case5 c cs noDot noBracket =>
        rw [readSteps, if_neg noDot, if_neg noBracket] at read
        cases read
  · rintro ⟨texts, rfl, reads⟩
    induction reads with
    | nil => rw [List.flatten_nil, readSteps]
    | cons first others ih =>
        rw [List.flatten_cons, readSteps_append first (begins_flatten others), ih]
        rfl

/-! ## Paths and modifiers -/

theorem readPath_eq_ok_iff {path : List Char} {root : String} {steps : List Step} :
    readPath path = .ok (root, steps) ↔
      ∃ texts, path = root.toList ++ texts.flatten ∧ isName root.toList = true ∧
        List.Forall₂ ReadsAs texts steps := by
  rw [readPath]
  constructor
  · intro read
    split at read
    · rename_i name
      obtain ⟨steps', later, same⟩ := bind_eq_ok_iff.1 read
      obtain ⟨rfl, rfl⟩ := Prod.mk.inj (Except.ok.inj same)
      obtain ⟨texts, shape, reads⟩ := readSteps_eq_ok_iff.1 later
      refine ⟨texts, ?_, by rwa [String.toList_ofList], reads⟩
      rw [String.toList_ofList, ← shape, List.takeWhile_append_dropWhile]
    · cases read
  · rintro ⟨texts, rfl, name, reads⟩
    obtain ⟨root_eq, rest_eq⟩ := takeWhile_append_dropWhile_word
      (fun c mem => beginsStep_of_continuesName (continuesName_of_isName name c mem))
      (begins_flatten reads)
    simp only [root_eq, rest_eq, name, if_true, readSteps_eq_ok_iff.2 ⟨texts, rfl, reads⟩,
      String.ofList_toList]
    rfl

theorem readModifier_eq_ok_iff {s : List Char} {name : String} :
    readModifier s = .ok name ↔ IsModifier s name := by
  rw [readModifier]
  constructor
  · intro read
    split at read
    · cases read
    · split at read
      · rename_i valid
        obtain rfl := Except.ok.inj read
        rw [IsModifier, String.toList_ofList]
        exact ⟨valid, .of_trim s⟩
      · cases read
  · rintro ⟨valid, padded⟩
    have same : trim s = name.toList := (trim_eq_iff (solid_of_isName valid)).2 padded
    have nonempty : ¬ name.toList.isEmpty = true :=
      mt List.isEmpty_iff.1 (ne_nil_of_isName valid)
    simp only [same, if_neg nonempty, if_pos valid, String.ofList_toList]

theorem readModifiers_eq_ok_iff {parts : List (List Char)} {names : List String} :
    parts.mapM readModifier = .ok names ↔ List.Forall₂ IsModifier parts names := by
  induction parts generalizing names with
  | nil =>
      rw [List.mapM_nil, List.forall₂_nil_left_iff]
      exact ⟨fun same => (Except.ok.inj same).symm, fun same => same ▸ rfl⟩
  | cons part parts ih =>
      rw [List.mapM_cons, bind_eq_ok_iff, List.forall₂_cons_left_iff]
      constructor
      · rintro ⟨name, first, read⟩
        obtain ⟨others, read, same⟩ := bind_eq_ok_iff.1 read
        exact ⟨name, others, readModifier_eq_ok_iff.1 first, ih.1 read,
          (Except.ok.inj same).symm⟩
      · rintro ⟨name, others, first, rest, rfl⟩
        refine ⟨name, readModifier_eq_ok_iff.2 first, ?_⟩
        rw [ih.2 rest]
        rfl

theorem ReadsAs.solid {w : List Char} {step : Step} (reads : ReadsAs w step) : Solid w := by
  obtain ⟨n, admitted⟩ := reads
  rcases admitted.shape with ⟨word, rfl, -, continues⟩ | ⟨inner, rfl, -⟩
  · apply Solid.of_forall
    intro c mem
    rcases List.mem_cons.1 mem with rfl | mem
    · decide
    · exact isBlank_of_continuesName (continues c mem)
  · exact .between (by decide) (by decide) inner

/-- The texts of a root and of steps have no blanks around them. -/
theorem solid_path {root : List Char} {texts : List (List Char)} {steps : List Step}
    (name : isName root = true) (reads : List.Forall₂ ReadsAs texts steps) :
    Solid (root ++ texts.flatten) := by
  refine (solid_of_isName name).append ?_
  induction reads with
  | nil => exact ⟨nofun, nofun⟩
  | cons first _ ih => exact first.solid.append ih

theorem readParts_eq_ok_iff {path : List Char} {parts : List (List Char)} {e : Expr} :
    readParts (path :: parts) = .ok e ↔
      ∃ texts, Padded path (e.root.toList ++ texts.flatten) ∧ isName e.root.toList = true ∧
        List.Forall₂ ReadsAs texts e.steps ∧ List.Forall₂ IsModifier parts e.modifiers := by
  rw [readParts]
  constructor
  · intro read
    split at read
    · cases read
    · obtain ⟨⟨root, steps⟩, first, read⟩ := bind_eq_ok_iff.1 read
      obtain ⟨names, others, same⟩ := bind_eq_ok_iff.1 read
      obtain rfl := Except.ok.inj same
      obtain ⟨texts, shape, name, reads⟩ := readPath_eq_ok_iff.1 first
      exact ⟨texts, shape ▸ .of_trim path, name, reads, readModifiers_eq_ok_iff.1 others⟩
  · rintro ⟨texts, padded, name, reads, modifiers⟩
    have same := (trim_eq_iff (solid_path name reads)).2 padded
    have nonempty : ¬ (trim path).isEmpty = true := by
      rw [same, List.isEmpty_iff, List.append_eq_nil_iff, not_and]
      exact fun empty => absurd empty (ne_nil_of_isName name)
    have first := readPath_eq_ok_iff.2 ⟨texts, same, name, reads⟩
    rw [if_neg nonempty, first, readModifiers_eq_ok_iff.2 modifiers]
    rfl

end Expr

end BraceTemplate
