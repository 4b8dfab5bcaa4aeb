/-
# BraceTemplate.Proofs.Expr.Piping — one more modifier behind an expression

A modifier may be written behind an expression, with `|` in front of it. A quoted key reaches to the
last quote of its step, so it may contain a part outside quotes, and an opening bracket in this part
is counted by the division at `|` alone: in a text without modifiers this goes unnoticed until one
is added.

* `composed_pipe_iff`: a text with one more modifier is composed as the text without it;
* `parse_pipe_iff`: when an expression with one more modifier is read.
-/
import Mathlib
import BraceTemplate.Proofs.Expr.Grammar

namespace BraceTemplate

set_option autoImplicit false

open Text

/-- A step with no bracket in its key leaves none open. -/
theorem Step.Admitted.eq_zero {n : Nat} {w : List Char} {step : Step}
    (admitted : Step.Admitted n w step)
    (noBracket : ∀ key, step = .key key → '[' ∉ key.toList) : n = 0 := by
  cases admitted with
  | name | dotted | index => rfl
  | @quoted n key q inner quote padded inside =>
      refine inside.eq_zero (padded.not_mem (by decide) ?_)
      have noQuote : '[' ≠ q := by
        rintro rfl
        cases quote
      simp only [List.mem_cons, List.mem_append, List.not_mem_nil, or_false, not_or]
      exact ⟨noQuote, noBracket key rfl, noQuote⟩

namespace Expr

/-- An expression with one more modifier. -/
def pipe (e : Expr) (m : String) : Expr :=
  { e with modifiers := e.modifiers ++ [m] }

theorem composed_pipe_iff {Spells : List Char → Step → Prop} {s : List Char} {e : Expr} {m : String}
    (name : isName m.toList = true) :
    Composed Spells (s ++ '|' :: m.toList) (e.pipe m) ↔ Composed Spells s e := by
  have absent : '|' ∉ m.toList := not_mem_of_isName name (by decide)
  constructor
  · rintro ⟨path, texts, parts, whole, padded, root, steps, modifiers⟩
    -- The last part is the modifier that was added.
    have front := List.forall₂_take_append parts e.modifiers [m] modifiers
    have last := List.forall₂_drop_append parts e.modifiers [m] modifiers
    obtain ⟨part, rest, isLast, none, shape⟩ := List.forall₂_cons_right_iff.1 last
    rw [List.forall₂_nil_right_iff] at none
    have absent' : '|' ∉ part := isLast.2.not_mem (by decide) absent
    rw [← List.take_append_drop e.modifiers.length parts, shape, none, List.flatMap_append,
      List.flatMap_singleton, ← List.append_assoc] at whole
    obtain ⟨rfl, -⟩ := append_cons_inj_last absent absent' whole
    exact ⟨path, texts, _, rfl, padded, root, steps, front⟩
  · rintro ⟨path, texts, parts, rfl, padded, root, steps, modifiers⟩
    refine ⟨path, texts, parts ++ [m.toList], ?_, padded, root, steps, ?_⟩
    · rw [List.flatMap_append, List.flatMap_singleton, List.append_assoc]
    · exact List.rel_append modifiers (.cons ⟨name, .refl _⟩ .nil)

theorem closed_of_noBracket {texts : List (List Char)} {steps : List Step}
    (reads : List.Forall₂ ReadsAs texts steps)
    (noBracket : ∀ key, .key key ∈ steps → '[' ∉ key.toList) :
    List.Forall₂ (Step.Admitted 0) texts steps := by
  induction reads with
  | nil => exact .nil
  | @cons w step texts steps first _ ih =>
      obtain ⟨n, admitted⟩ := first
      obtain rfl : n = 0 := by
        refine admitted.eq_zero ?_
        rintro key rfl
        exact noBracket key List.mem_cons_self
      exact .cons admitted (ih fun key mem => noBracket key (List.mem_cons_of_mem _ mem))

/-- A text that is an expression leaves no bracket open if it has modifiers already, or if no key
has a bracket in it. -/
theorem Composed.closed {s : List Char} {e : Expr} (composed : Composed (Permitted e.modifiers) s e)
    (enough : e.modifiers ≠ [] ∨ ∀ key, .key key ∈ e.steps → '[' ∉ key.toList) :
    Composed (Step.Admitted 0) s e := by
  rcases enough with some | noBracket
  · exact composed.mono fun w step permitted => permitted.closed some
  · obtain ⟨path, texts, parts, whole, padded, name, permitted, modifiers⟩ := composed
    have reads : List.Forall₂ ReadsAs texts e.steps := permitted.imp fun _ _ => Permitted.readsAs
    exact ⟨path, texts, parts, whole, padded, name, closed_of_noBracket reads noBracket, modifiers⟩

theorem toList_pipe (text m : String) :
    (text ++ "|" ++ m).toList = text.toList ++ '|' :: m.toList := by
  have bar : "|".toList = ['|'] := by decide
  rw [String.toList_append, String.toList_append, bar, List.append_assoc, List.singleton_append]

/-- **When a modifier can be added.** Behind a text that is an expression one more modifier is read
exactly if no step of the text leaves a bracket open for the division. So it is in every text with
modifiers, and in every text whose keys have no bracket in them. -/
theorem parse_pipe_iff {text m : String} {e : Expr} (read : parse text = .ok e)
    (name : isName m.toList = true) :
    (parse (text ++ "|" ++ m) = .ok (e.pipe m) ↔ Composed (Step.Admitted 0) text.toList e) ∧
      ((e.modifiers ≠ [] ∨ ∀ key, .key key ∈ e.steps → '[' ∉ key.toList) →
        parse (text ++ "|" ++ m) = .ok (e.pipe m)) := by
  have some : (e.pipe m).modifiers ≠ [] :=
    List.append_ne_nil_of_right_ne_nil _ (List.cons_ne_nil _ _)
  have behind : parse (text ++ "|" ++ m) = .ok (e.pipe m) ↔
      Composed (Step.Admitted 0) text.toList e := by
    rw [parse_eq_ok_iff, toList_pipe, Valid, composed_pipe_iff name]
    constructor
    · exact fun composed => composed.mono fun w step permitted => permitted.closed some
    · exact fun composed => composed.mono fun w step admitted => .of_closed admitted
  exact ⟨behind, fun enough => behind.2 ((parse_eq_ok_iff.1 read).closed enough)⟩

theorem parse_pipe_iff_quoted :
    parse "m['a|b'] | trim" = .ok ⟨"m", [.key "a|b"], ["trim"]⟩ ∧
      parse ("m['a|b'] | trim" ++ "|" ++ "upper") = .ok ⟨"m", [.key "a|b"], ["trim", "upper"]⟩ := by
  have read : parse "m['a|b'] | trim" = .ok ⟨"m", [.key "a|b"], ["trim"]⟩ := by cbv
  exact ⟨read, (parse_pipe_iff read (by decide)).2 (.inl (by decide))⟩

/-- A bracket that a key opens outside quotes is still open where the modifier is added. -/
theorem parse_pipe_ne :
    parse "m['a'['b']" = .ok ⟨"m", [.key "a'['b"], []⟩ ∧
      parse ("m['a'['b']" ++ "|" ++ "upper") =
        .error ⟨"m['a'['b']|upper", .unexpectedText "|upper"⟩ := by
  constructor <;> cbv

end Expr

end BraceTemplate
