/-
# BraceTemplate.Proofs.Expr.Brackets — where brackets end and where texts divide

Two readers look at brackets. `cutBracket?` looks for the end of one bracket step and knows only
quotes; `splitOutside` looks for separators, knows quotes inside brackets only, and counts brackets.
`Bracketed n s` describes what stands between the brackets of a step for both: no quoted text is
left open, no bracket is closed, and `n` brackets are opened.

* `cutBracket?_eq_some_iff`: the text of a bracket step is a bracketed text before a `]`;
* `Bracketed.passes`: a division passes over such a text, `n` brackets deeper;
* `splitOutside_joined_iff`: when texts are found again between separators.
-/
import BraceTemplate.Expr.Parser
import BraceTemplate.Proofs.Text.Padding

namespace BraceTemplate

set_option autoImplicit false

namespace Expr

open Text

/-- A character that neither quotes nor is a bracket. -/
def isPlain (c : Char) : Bool :=
  !isQuote c && c != '[' && c != ']'

/-- A text between brackets: every quoted part is closed, and of brackets outside quotes there are
`n` opening ones and no closing one. -/
inductive Bracketed : Nat → List Char → Prop where
  | nil : Bracketed 0 []
  | plain {n : Nat} {c : Char} {s : List Char} (valid : isPlain c = true) (rest : Bracketed n s) :
      Bracketed n (c :: s)
  | opening {n : Nat} {s : List Char} (rest : Bracketed n s) : Bracketed (n + 1) ('[' :: s)
  | quoted {n : Nat} {q : Char} {text s : List Char} (quote : isQuote q = true) (closed : q ∉ text)
      (rest : Bracketed n s) : Bracketed n (q :: (text ++ q :: s))

theorem isPlain_iff {c : Char} : isPlain c = true ↔ isQuote c = false ∧ c ≠ '[' ∧ c ≠ ']' := by
  simp only [isPlain, Bool.and_eq_true, Bool.not_eq_true', bne_iff_ne, ne_eq, and_assoc]

theorem isBlank_of_isQuote {q : Char} (quote : isQuote q = true) : isBlank q = false := by
  rcases (Bool.or_eq_true _ _).mp quote with single | double
  · rw [eq_of_beq single]
    decide
  · rw [eq_of_beq double]
    decide

/-- A class of characters without quotes and brackets has plain characters only. -/
theorem isPlain_of_class {p : Char → Bool} (marks : ['\'', '"', '[', ']'].any p = false)
    {c : Char} (valid : p c = true) : isPlain c = true := by
  have ne : c ∉ ['\'', '"', '[', ']'] := by
    intro mark
    exact List.any_eq_false.1 marks c mark valid
  simp only [List.mem_cons, List.not_mem_nil, or_false, not_or] at ne
  obtain ⟨single, double, noOpen, noClose⟩ := ne
  have noQuote : isQuote c = false :=
    Bool.or_eq_false_iff.2 ⟨beq_eq_false_iff_ne.2 single, beq_eq_false_iff_ne.2 double⟩
  exact isPlain_iff.2 ⟨noQuote, noOpen, noClose⟩

theorem isPlain_of_continuesName {c : Char} (continues : continuesName c = true) :
    isPlain c = true :=
  isPlain_of_class (by decide) continues

theorem isPlain_of_isBlank {c : Char} (blank : isBlank c = true) : isPlain c = true :=
  isPlain_of_class (by decide) blank

namespace Bracketed

variable {n m : Nat} {s t : List Char}

theorem of_plain (valid : ∀ c ∈ s, isPlain c = true) : Bracketed 0 s := by
  induction s with
  | nil => exact .nil
  | cons c s ih =>
      rw [List.forall_mem_cons] at valid
      exact .plain valid.1 (ih valid.2)

theorem append (first : Bracketed n s) (second : Bracketed m t) : Bracketed (n + m) (s ++ t) := by
  induction first with
  | nil => rwa [Nat.zero_add]
  | plain valid _ ih => exact .plain valid ih
  | opening _ ih =>
      rw [Nat.add_right_comm]
      exact .opening ih
  | @quoted n q text s quote closed _ ih =>
      rw [List.cons_append, List.append_assoc, List.cons_append]
      exact .quoted quote closed ih

/-- Blanks around a bracketed text do not matter. -/
theorem padded (inside : Bracketed n s) (padded : Padded t s) : Bracketed n t := by
  obtain ⟨before, after, rfl, blanks, blanks'⟩ := padded
  have first := of_plain fun c mem => isPlain_of_isBlank (blanks c mem)
  have last := of_plain fun c mem => isPlain_of_isBlank (blanks' c mem)
  have whole := (first.append inside).append last
  rwa [Nat.zero_add] at whole

/-- A key in quotes that it does not contain. -/
theorem of_quoted {q : Char} (quote : isQuote q = true) (absent : q ∉ s) :
    Bracketed 0 (q :: (s ++ [q])) :=
  .quoted quote absent .nil

/-- Only an opening bracket is counted. -/
theorem eq_zero (inside : Bracketed n s) (noBracket : '[' ∉ s) : n = 0 := by
  induction inside with
  | nil => rfl
  | plain _ _ ih => exact ih (List.not_mem_of_not_mem_cons noBracket)
  | opening => exact absurd List.mem_cons_self noBracket
  | quoted _ _ _ ih =>
      apply ih
      intro mem
      apply noBracket
      simp [mem]

end Bracketed

/-! ## The end of a bracket step -/

/-- What stands before the end of a bracket step where reading goes on, perhaps inside quotes. -/
def Remains (n : Nat) : Option Char → List Char → Prop
  | none, s => Bracketed n s
  | some q, s => ∃ text rest, q ∉ text ∧ s = text ++ q :: rest ∧ Bracketed n rest

theorem cutBracket?_quoted {q : Char} {text : List Char} (closed : q ∉ text) (s : List Char) :
    cutBracket? (some q) (text ++ q :: s) =
      (cutBracket? none s).map fun (inner, after) => (text ++ q :: inner, after) := by
  induction text with
  | nil => simp [cutBracket?]
  | cons c text ih =>
      rw [List.mem_cons, not_or] at closed
      have other : (c == q) = false := beq_eq_false_iff_ne.2 (Ne.symm closed.1)
      rw [List.cons_append, cutBracket?]
      simp only [other, Bool.false_eq_true, if_false, ih closed.2, Option.map_map]
      rfl

theorem remains_of_cutBracket? {quote : Option Char} {s inner after : List Char}
    (cut : cutBracket? quote s = some (inner, after)) :
    s = inner ++ ']' :: after ∧ ∃ n, Remains n quote inner := by
  induction s generalizing quote inner with
  | nil => cases cut
  | cons c s ih =>
      -- Unless the step ends here, its text begins with this character.
      have next : ∀ {quote' : Option Char}, ((cutBracket? quote' s).map fun (inner, after) =>
            (c :: inner, after)) = some (inner, after) →
          ∃ rest, inner = c :: rest ∧ s = rest ++ ']' :: after ∧ ∃ n, Remains n quote' rest := by
        intro quote' found
        obtain ⟨⟨rest, after'⟩, cut', same⟩ := Option.map_eq_some_iff.1 found
        obtain ⟨rfl, rfl⟩ := Prod.mk.inj same
        exact ⟨rest, rfl, ih cut'⟩
      cases quote with
      | some q =>
          rw [cutBracket?] at cut
          obtain ⟨rest, rfl, rfl, n, remains⟩ := next cut
          refine ⟨rfl, n, ?_⟩
          by_cases ends : c = q
          · subst ends
            rw [beq_self_eq_true, if_pos rfl] at remains
            exact ⟨[], rest, List.not_mem_nil, rfl, remains⟩
          · rw [if_neg (mt eq_of_beq ends)] at remains
            obtain ⟨text, rest, closed, rfl, inside⟩ := remains
            refine ⟨c :: text, rest, ?_, rfl, inside⟩
            rw [List.mem_cons, not_or]
            exact ⟨Ne.symm ends, closed⟩
      | none =>
          rw [cutBracket?] at cut
          split at cut
          · rename_i quote
            obtain ⟨rest, rfl, rfl, n, text, rest, closed, rfl, inside⟩ := next cut
            exact ⟨rfl, n, .quoted quote closed inside⟩
          · rename_i noQuote
            split at cut
            · rename_i closes
              obtain ⟨rfl, rfl⟩ := Prod.mk.inj (Option.some.inj cut)
              rw [eq_of_beq closes]
              exact ⟨rfl, 0, .nil⟩
            · rename_i noClose
              obtain ⟨rest, rfl, rfl, n, inside⟩ := next cut
              refine ⟨rfl, ?_⟩
              by_cases opens : c = '['
              · subst opens
                exact ⟨n + 1, .opening inside⟩
              · have plain : isPlain c = true :=
                  isPlain_iff.2 ⟨Bool.eq_false_iff.2 noQuote, opens, mt beq_iff_eq.2 noClose⟩
                exact ⟨n, .plain plain inside⟩

theorem Bracketed.cutBracket? {n : Nat} {inner : List Char} (inside : Bracketed n inner)
    (after : List Char) : Expr.cutBracket? none (inner ++ ']' :: after) = some (inner, after) := by
  induction inside with
  | nil => rfl
  | @plain n c s valid _ ih =>
      obtain ⟨noQuote, -, noClose⟩ := isPlain_iff.1 valid
      rw [List.cons_append, Expr.cutBracket?]
      simp only [noQuote, beq_eq_false_iff_ne.2 noClose, Bool.false_eq_true, if_false, ih,
        Option.map_some]
  | @opening n s _ ih =>
      show (Expr.cutBracket? none (s ++ ']' :: after)).map _ = _
      rw [ih]
      rfl
  | @quoted n q text s quote closed _ ih =>
      rw [List.cons_append, List.append_assoc, List.cons_append, Expr.cutBracket?]
      simp only [quote, if_true, cutBracket?_quoted closed, ih, Option.map_some]

/-- A bracket step ends at the first `]` behind which no quoted text is open. -/
theorem cutBracket?_eq_some_iff {s inner after : List Char} :
    cutBracket? none s = some (inner, after) ↔
      s = inner ++ ']' :: after ∧ ∃ n, Bracketed n inner := by
  constructor
  · exact remains_of_cutBracket?
  · rintro ⟨rfl, n, inside⟩
    exact inside.cutBracket? after

/-! ## Dividing texts -/

/-- Puts a text in front of the first of several parts. -/
def prepend (front : List Char) (parts : List (List Char)) : List (List Char) :=
  front.foldr consFirst parts

theorem prepend_cons (front part : List Char) (parts : List (List Char)) :
    prepend front (part :: parts) = (front ++ part) :: parts := by
  induction front with
  | nil => rfl
  | cons c front ih =>
      rw [prepend, List.foldr_cons, ← prepend, ih]
      rfl

theorem prepend_append (front next : List Char) (parts : List (List Char)) :
    prepend (front ++ next) parts = prepend front (prepend next parts) :=
  List.foldr_append

variable {separator : Char}

/-- Dividing a text goes on behind `w`, `n` brackets deeper, with no separator found in it. -/
def Passes (separator : Char) (n : Nat) (w : List Char) : Prop :=
  ∀ depth rest, splitOutside separator depth none (w ++ rest) =
    prepend w (splitOutside separator (depth + n) none rest)

theorem splitOutside_quoted {q : Char} {text : List Char} (closed : q ∉ text) (depth : Nat)
    (s : List Char) : splitOutside separator depth (some q) (text ++ q :: s) =
      prepend (text ++ [q]) (splitOutside separator depth none s) := by
  induction text with
  | nil => simp [splitOutside, prepend]
  | cons c text ih =>
      rw [List.mem_cons, not_or] at closed
      have other : (c == q) = false := beq_eq_false_iff_ne.2 (Ne.symm closed.1)
      rw [List.cons_append, splitOutside]
      simp only [other, Bool.false_eq_true, if_false, ih closed.2]
      rfl

theorem splitOutside_plain {c : Char} (plain : isPlain c = true) {depth : Nat}
    (kept : c ≠ separator ∨ depth ≠ 0) (s : List Char) :
    splitOutside separator depth none (c :: s) =
      consFirst c (splitOutside separator depth none s) := by
  obtain ⟨noQuote, noOpen, noClose⟩ := isPlain_iff.1 plain
  have noSeparator : (c == separator && depth == 0) = false := by
    rw [Bool.and_eq_false_iff, beq_eq_false_iff_ne, beq_eq_false_iff_ne]
    exact kept
  rw [splitOutside]
  simp only [noQuote, Bool.false_and, beq_eq_false_iff_ne.2 noOpen, beq_eq_false_iff_ne.2 noClose,
    noSeparator, Bool.false_eq_true, if_false]

theorem Bracketed.splitOutside {n : Nat} {inner : List Char} (inside : Bracketed n inner)
    (depth : Nat) (s : List Char) :
    Expr.splitOutside separator (depth + 1) none (inner ++ s) =
      prepend inner (Expr.splitOutside separator (depth + 1 + n) none s) := by
  induction inside generalizing depth with
  | nil => rfl
  | plain valid _ ih =>
      rw [List.cons_append, splitOutside_plain valid (.inr (Nat.succ_ne_zero _)), ih]
      rfl
  | @opening n s' _ ih =>
      have deeper : depth + 1 + (n + 1) = depth + 1 + 1 + n := by omega
      show consFirst '[' (Expr.splitOutside separator (depth + 1 + 1) none (s' ++ s)) = _
      rw [ih (depth + 1), deeper]
      rfl
  | @quoted n q text s' quote closed _ ih =>
      have inBrackets : (depth + 1 != 0) = true := bne_iff_ne.2 (Nat.succ_ne_zero depth)
      rw [List.cons_append, List.append_assoc, List.cons_append, Expr.splitOutside]
      simp only [quote, inBrackets, Bool.and_self, if_true, splitOutside_quoted closed, ih]
      rw [← prepend_append, List.append_assoc]
      rfl

namespace Passes

variable {n m : Nat} {s t : List Char}

theorem nil : Passes separator 0 [] :=
  fun _ _ => rfl

theorem append (first : Passes separator n s) (second : Passes separator m t) :
    Passes separator (n + m) (s ++ t) := by
  intro depth rest
  rw [List.append_assoc, first, second, prepend_append, Nat.add_assoc]

theorem of_plain (valid : ∀ c ∈ s, isPlain c = true) (noSeparator : separator ∉ s) :
    Passes separator 0 s := by
  induction s with
  | nil => exact nil
  | cons c s ih =>
      rw [List.forall_mem_cons] at valid
      rw [List.mem_cons, not_or] at noSeparator
      intro depth rest
      rw [List.cons_append, splitOutside_plain valid.1 (.inl (Ne.symm noSeparator.1)),
        ih valid.2 noSeparator.2]
      rfl

theorem single {c : Char} (plain : isPlain c = true) (other : separator ≠ c) :
    Passes separator 0 [c] :=
  of_plain (List.forall_mem_singleton.2 plain) (mt List.mem_singleton.1 other)

/-- A division passes over a bracket step; brackets that are opened inside stay open. -/
theorem brackets (inside : Bracketed n s) : Passes separator n ('[' :: (s ++ [']'])) := by
  intro depth rest
  have deeper : depth + 1 + n - 1 = depth + n := by omega
  show consFirst '[' (splitOutside separator (depth + 1) none (s ++ [']'] ++ rest)) = _
  rw [List.append_assoc, inside.splitOutside]
  show consFirst '[' (prepend s (consFirst ']' (splitOutside separator (depth + 1 + n - 1) none
    rest))) = _
  rw [deeper, prepend, prepend, List.foldr_cons, List.foldr_append]
  rfl

end Passes

theorem splitOutside_separator (plain : isPlain separator = true) (s : List Char) :
    splitOutside separator 0 none (separator :: s) = [] :: splitOutside separator 0 none s := by
  obtain ⟨-, noOpen, noClose⟩ := isPlain_iff.1 plain
  rw [splitOutside]
  simp [noOpen, noClose]

/-- Whatever is divided consists of its parts with separators between them. -/
theorem exists_parts (separator : Char) (depth : Nat) (quote : Option Char) (s : List Char) :
    ∃ first parts, splitOutside separator depth quote s = first :: parts ∧
      s = first ++ parts.flatMap (separator :: ·) := by
  induction s generalizing depth quote with
  | nil => exact ⟨[], [], rfl, rfl⟩
  | cons c s ih =>
      -- Unless a part ends here, the first part begins with this character.
      have next : ∀ depth' quote', ∃ first parts,
          consFirst c (splitOutside separator depth' quote' s) = first :: parts ∧
            c :: s = first ++ parts.flatMap (separator :: ·) := by
        intro depth' quote'
        obtain ⟨first, parts, divided, rfl⟩ := ih depth' quote'
        rw [divided]
        exact ⟨_, _, rfl, rfl⟩
      cases quote with
      | some q => exact next _ _
      | none =>
          rw [splitOutside]
          split
          · exact next _ _
          · split
            · exact next _ _
            · split
              · exact next _ _
              · split
                · rename_i found
                  obtain ⟨first, parts, divided, rfl⟩ := ih 0 none
                  rw [Bool.and_eq_true, beq_iff_eq] at found
                  rw [divided, found.1]
                  exact ⟨[], first :: parts, rfl, rfl⟩
                · exact next _ _

/-- Inside brackets nothing is divided off. -/
theorem Passes.eq_zero (plain : isPlain separator = true) {n : Nat} {s part : List Char}
    {parts : List (List Char)} (passes : Passes separator n s)
    (divided : splitOutside separator 0 none (s ++ (part :: parts).flatMap (separator :: ·)) =
      s :: part :: parts) : n = 0 := by
  rcases Nat.eq_zero_or_pos n with closed | open_
  · exact closed
  -- Otherwise the separator behind `s` would belong to the first part.
  · obtain ⟨rest, parts', found, -⟩ := exists_parts separator n none
      (part ++ parts.flatMap (separator :: ·))
    rw [passes, Nat.zero_add, List.flatMap_cons, List.cons_append,
      splitOutside_plain plain (.inr (Nat.pos_iff_ne_zero.1 open_)), found, consFirst,
      prepend_cons] at divided
    have same := List.append_right_eq_self.1 (List.cons.inj divided).1
    cases same

theorem Passes.splitOutside_separator (plain : isPlain separator = true) {s : List Char}
    (passes : Passes separator 0 s) (rest : List Char) :
    splitOutside separator 0 none (s ++ separator :: rest) =
      s :: splitOutside separator 0 none rest := by
  rw [passes, Nat.zero_add, Expr.splitOutside_separator plain, prepend_cons, List.append_nil]

/-- A division passes over a text in one way. -/
theorem Passes.eq_zero_of_passes (plain : isPlain separator = true) {n : Nat} {s : List Char}
    (passes : Passes separator n s) (closed : Passes separator 0 s) : n = 0 := by
  have divided : splitOutside separator 0 none (s ++ [[]].flatMap (separator :: ·)) = [s, []] :=
    closed.splitOutside_separator plain []
  exact passes.eq_zero plain divided

/-- Texts with separators between them are found again exactly if none of them leaves a bracket open
in front of a separator. -/
theorem splitOutside_joined_iff (plain : isPlain separator = true) {first : List Char}
    {parts : List (List Char)} (passes : ∀ part ∈ first :: parts, ∃ n, Passes separator n part) :
    splitOutside separator 0 none (first ++ parts.flatMap (separator :: ·)) = first :: parts ↔
      ∀ part ∈ (first :: parts).dropLast, Passes separator 0 part := by
  induction parts generalizing first with
  | nil =>
      obtain ⟨n, passes⟩ := passes first List.mem_cons_self
      rw [List.flatMap_nil, passes, splitOutside, prepend_cons, List.append_nil]
      exact ⟨fun _ => nofun, fun _ => rfl⟩
  | cons part parts ih =>
      obtain ⟨⟨n, passesFirst⟩, others⟩ := List.forall_mem_cons.1 passes
      rw [List.dropLast_cons_cons, List.forall_mem_cons, ← ih others]
      constructor
      · intro divided
        obtain rfl : n = 0 := passesFirst.eq_zero plain divided
        rw [List.flatMap_cons, List.cons_append,
          passesFirst.splitOutside_separator plain] at divided
        exact ⟨passesFirst, (List.cons.inj divided).2⟩
      · rintro ⟨closed, divided⟩
        rw [List.flatMap_cons, List.cons_append, closed.splitOutside_separator plain, divided]

/-- Texts between separators are found again if no bracket of theirs is left open. In a text without
a separator brackets do not matter. -/
theorem splitOutside_joined (plain : isPlain separator = true) {n : Nat} {first : List Char}
    {parts : List (List Char)} (passes : Passes separator n first)
    (all : ∀ part ∈ parts, Passes separator 0 part) (closed : n = 0 ∨ parts = []) :
    splitOutside separator 0 none (first ++ parts.flatMap (separator :: ·)) = first :: parts := by
  have each : ∀ part ∈ first :: parts, ∃ n, Passes separator n part :=
    List.forall_mem_cons.2 ⟨⟨n, passes⟩, fun part mem => ⟨0, all part mem⟩⟩
  rw [splitOutside_joined_iff plain each]
  rcases closed with rfl | rfl
  · exact fun part mem => List.forall_mem_cons.2 ⟨passes, all⟩ part (List.dropLast_subset _ mem)
  · exact nofun

end Expr

end BraceTemplate
