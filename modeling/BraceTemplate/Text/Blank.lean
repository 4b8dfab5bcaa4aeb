/-
# BraceTemplate.Text.Blank — blank characters and trimming

A blank is a character with the Unicode property White_Space. Directives, expressions and
assignments are trimmed of blanks, and the first blank of a directive ends its keyword.

`trim_eq_nil_iff` says that trimming leaves nothing exactly when there is nothing but blanks, and
`trim_eq_self` that it leaves a text with no blank at either end as it is.
-/

namespace BraceTemplate.Text

set_option autoImplicit false

/-- The characters with Unicode property White_Space. -/
def isBlank (c : Char) : Bool :=
  let n := c.toNat
  (0x09 ≤ n && n ≤ 0x0d) || n == 0x20 || n == 0x85 || n == 0xa0 || n == 0x1680 ||
    (0x2000 ≤ n && n ≤ 0x200a) || n == 0x2028 || n == 0x2029 || n == 0x202f || n == 0x205f ||
    n == 0x3000

/-- Drops the blanks in front. -/
def trimStart (s : List Char) : List Char :=
  s.dropWhile isBlank

/-- Drops the blanks at the end. -/
def trimEnd (s : List Char) : List Char :=
  (s.reverse.dropWhile isBlank).reverse

/-- Drops the blanks at both ends. -/
def trim (s : List Char) : List Char :=
  trimEnd (trimStart s)

/-- The text `s` without the blanks at both ends. -/
def trimmed (s : String) : String :=
  String.ofList (trim s.toList)

theorem dropWhile_eq_nil_iff {α : Type} {p : α → Bool} {l : List α} :
    l.dropWhile p = [] ↔ ∀ a ∈ l, p a = true := by
  induction l with
  | nil => simp
  | cons a l ih => by_cases h : p a <;> simp [h, ih]

theorem trim_eq_nil_iff {s : List Char} : trim s = [] ↔ ∀ c ∈ s, isBlank c = true := by
  constructor
  · intro h c hc
    have hd : ∀ d ∈ trimStart s, isBlank d = true := by
      simpa [trim, trimEnd, dropWhile_eq_nil_iff] using h
    have hsplit : s.takeWhile isBlank ++ trimStart s = s := List.takeWhile_append_dropWhile
    rw [← hsplit, List.mem_append] at hc
    exact hc.elim (fun h => (List.all_eq_true.1 List.all_takeWhile) c h) (hd c)
  · intro h
    simp [trim, trimEnd, trimStart, dropWhile_eq_nil_iff.2 h]

theorem dropWhile_eq_self {α : Type} {p : α → Bool} {l : List α}
    (first : ∀ a ∈ l.head?, p a = false) : l.dropWhile p = l := by
  cases l with
  | nil => rfl
  | cons a l => simp [first a rfl]

theorem trim_eq_self {s : List Char} (first : ∀ c ∈ s.head?, isBlank c = false)
    (last : ∀ c ∈ s.getLast?, isBlank c = false) : trim s = s := by
  rw [← List.head?_reverse] at last
  rw [trim, trimStart, dropWhile_eq_self first, trimEnd, dropWhile_eq_self last,
    List.reverse_reverse]

end BraceTemplate.Text
