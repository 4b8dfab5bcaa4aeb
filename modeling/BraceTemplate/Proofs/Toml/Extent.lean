/-
# BraceTemplate.Proofs.Toml.Extent — how far readers read

A reader takes something off a text and gives the rest. What it takes does not depend on how much of
the rest there is (`Extent`), and a reader with fuel needs one unit for each character that it takes
(`Taken`). So what is read of a text can be cut out of it, and is the same for any amount of fuel
that is enough.

* `Extent.andThen`, `Extent.behind`: steps that follow each other have an extent together;
* `run_extent`: that of a run of characters of one kind.
-/
import Mathlib.Data.List.Basic

namespace BraceTemplate.Toml

set_option autoImplicit false

/-- A step leads from a text to its rest, and still does if less of the rest is left. -/
def Extent (step : List Char → List Char → Prop) (s rest : List Char) : Prop :=
  ∃ front, s = front ++ rest ∧ ∀ cut, cut <+: rest → step (front ++ cut) cut

/-- A reader gives a result and the rest of a text, if it has a unit of fuel for each character that
it takes. -/
def Taken {α : Type} (read : Nat → List Char → Option (α × List Char)) (a : α)
    (s rest : List Char) : Prop :=
  ∀ fuel, s.length ≤ fuel + rest.length → read fuel s = some (a, rest)

/-- What takes at least one character costs one unit of fuel. -/
theorem taken_of_step {α : Type} {read : Nat → List Char → Option (α × List Char)} {a : α}
    {x y : List Char} (shorter : y.length < x.length)
    (step : ∀ fuel, x.length ≤ fuel + 1 + y.length → read (fuel + 1) x = some (a, y)) :
    Taken read a x y := by
  intro fuel enough
  cases fuel with
  | zero => omega
  | succ fuel => exact step fuel enough

namespace Extent

variable {p q : List Char → List Char → Prop} {s mid rest : List Char}

theorem mono (extent : Extent p s rest)
    (weaker : ∀ x y, x <+: s → y <+: rest → p x y → q x y) : Extent q s rest := by
  obtain ⟨front, rfl, reads⟩ := extent
  refine ⟨front, rfl, ?_⟩
  intro cut left
  exact weaker _ _ ((List.prefix_append_right_inj front).2 left) left (reads cut left)

/-- Two steps after one another. -/
theorem andThen (first : Extent p s mid) (second : Extent q mid rest) :
    Extent (fun x z => ∃ y, p x y ∧ q y z ∧ y.length ≤ x.length ∧ z.length ≤ y.length) s rest := by
  obtain ⟨front, rfl, reads⟩ := first
  obtain ⟨front', rfl, reads'⟩ := second
  refine ⟨front ++ front', by simp, ?_⟩
  intro cut left
  rw [List.append_assoc]
  have inner := (List.prefix_append_right_inj front').2 left
  exact ⟨front' ++ cut, reads _ inner, reads' cut left, by simp, by simp⟩

theorem char (c : Char) (s : List Char) : Extent (fun x y => x = c :: y) (c :: s) s :=
  ⟨[c], rfl, fun _ _ => rfl⟩

/-- What a reader takes behind a piece of text that costs one unit of fuel. -/
theorem behind {α β : Type} {read : Nat → List Char → Option (α × List Char)}
    {read' : Nat → List Char → Option (β × List Char)} {a : α} {b : β}
    (inner : Extent (Taken read a) s rest) (piece : List Char) (nonempty : piece ≠ [])
    (step : ∀ fuel other after, other <+: s → read fuel other = some (a, after) →
      read' (fuel + 1) (piece ++ other) = some (b, after)) :
    Extent (Taken read' b) (piece ++ s) rest := by
  obtain ⟨front, rfl, reads⟩ := inner
  refine ⟨piece ++ front, by simp, ?_⟩
  intro cut left
  have one := List.length_pos_iff.2 nonempty
  rw [List.append_assoc]
  apply taken_of_step
  · simp only [List.length_append]
    omega
  · intro fuel enough
    simp only [List.length_append] at enough
    apply step fuel _ _ ((List.prefix_append_right_inj front).2 left)
    apply reads cut left
    simp only [List.length_append]
    omega

/-- A piece of text that is taken at once. -/
theorem last {α : Type} {read : Nat → List Char → Option (α × List Char)} {a : α}
    (piece : List Char) (nonempty : piece ≠ [])
    (step : ∀ fuel cut, cut <+: rest → read (fuel + 1) (piece ++ cut) = some (a, cut)) :
    Extent (Taken read a) (piece ++ rest) rest := by
  refine ⟨piece, rfl, ?_⟩
  intro cut left
  have one := List.length_pos_iff.2 nonempty
  apply taken_of_step
  · rw [List.length_append]
    omega
  · intro fuel _
    exact step fuel cut left

end Extent

theorem map_fst_eq_some {α β γ : Type} {x : Option (α × γ)} {f : α → β} {b : β} {rest : γ} :
    (x.map fun (a, rest) => (f a, rest)) = some (b, rest) ↔ ∃ a, x = some (a, rest) ∧ f a = b := by
  rw [Option.map_eq_some_iff]
  constructor
  · rintro ⟨⟨a, rest⟩, found, ⟨⟩⟩
    exact ⟨a, found, rfl⟩
  · rintro ⟨a, found, rfl⟩
    exact ⟨(a, rest), found, rfl⟩

/-! ## Runs of characters -/

theorem head_of_prefix_dropWhile {p : Char → Bool} {s cut : List Char} {c : Char}
    (left : c :: cut <+: s.dropWhile p) : p c = false := by
  obtain ⟨rest, same⟩ := left
  induction s with
  | nil => simp at same
  | cons d s ih =>
      by_cases inRun : p d = true
      · rw [List.dropWhile_cons_of_pos inRun] at same
        exact ih same
      · rw [List.dropWhile_cons_of_neg inRun] at same
        rw [(List.cons.inj same).1]
        exact Bool.eq_false_iff.2 inRun

/-- A run of characters of one kind ends where it does, however much is left behind it. -/
theorem dropWhile_run {p : Char → Bool} {s cut : List Char} (left : cut <+: s.dropWhile p) :
    (s.takeWhile p ++ cut).dropWhile p = cut := by
  rw [List.dropWhile_append_of_pos fun c mem => List.all_eq_true.1 List.all_takeWhile c mem]
  cases cut with
  | nil => rfl
  | cons c cut => exact List.dropWhile_cons_of_neg (by simp [head_of_prefix_dropWhile left])

theorem takeWhile_run {p : Char → Bool} {s cut : List Char} (left : cut <+: s.dropWhile p) :
    (s.takeWhile p ++ cut).takeWhile p = s.takeWhile p := by
  rw [List.takeWhile_append_of_pos fun c mem => List.all_eq_true.1 List.all_takeWhile c mem]
  cases cut with
  | nil => simp
  | cons c cut => simp [head_of_prefix_dropWhile left]

theorem run_extent (p : Char → Bool) (s : List Char) :
    Extent (fun x y => x.takeWhile p = s.takeWhile p ∧ x.dropWhile p = y) s (s.dropWhile p) :=
  ⟨s.takeWhile p, List.takeWhile_append_dropWhile.symm,
    fun _ left => ⟨takeWhile_run left, dropWhile_run left⟩⟩

theorem prefix_takeWhile {p : Char → Bool} {s t : List Char} (front : s <+: t) :
    s.takeWhile p <+: t.takeWhile p := by
  obtain ⟨rest, rfl⟩ := front
  induction s with
  | nil => exact List.nil_prefix
  | cons c s ih =>
      by_cases inRun : p c = true
      · simpa [List.takeWhile_cons, inRun] using ih
      · simp [inRun]

end BraceTemplate.Toml
