/-
# BraceTemplate.Text.Line — lines and byte counts

A line ends after its newline, or with the text. `lines_append` and `lines_newline` say what stands
in front of the first newline and behind it. `utf8ByteSize_ofList` says that `byteLength` counts the
bytes of a string.
-/

namespace BraceTemplate.Text

set_option autoImplicit false

/-- The lines of a text, each with its newline; the last one may have none. -/
def lines : List Char → List (List Char)
  | [] => []
  | c :: cs =>
      if c == '\n' then [c] :: lines cs
      else match lines cs with
        | [] => [[c]]
        | line :: rest => (c :: line) :: rest

/-- The number of bytes that a text takes in UTF-8. -/
def byteLength (s : List Char) : Nat :=
  s.foldr (fun c n => c.utf8Size + n) 0

theorem byteLength_cons (c : Char) (s : List Char) :
    byteLength (c :: s) = c.utf8Size + byteLength s :=
  rfl

theorem byteLength_append (s s' : List Char) :
    byteLength (s ++ s') = byteLength s + byteLength s' := by
  induction s with
  | nil => exact (Nat.zero_add _).symm
  | cons c s ih => rw [List.cons_append, byteLength_cons, ih, byteLength_cons, Nat.add_assoc]

theorem utf8ByteSize_ofList (s : List Char) : (String.ofList s).utf8ByteSize = byteLength s := by
  induction s with
  | nil => rfl
  | cons c s ih =>
      rw [String.ofList_cons, String.utf8ByteSize_append, String.utf8ByteSize_singleton, ih,
        byteLength_cons]

theorem lines_append {a : List Char} (nonempty : a ≠ []) (inLine : '\n' ∉ a) (b : List Char) :
    lines (a ++ b) = (a ++ (lines b).headD []) :: (lines b).tail := by
  induction a with
  | nil => exact absurd rfl nonempty
  | cons c a ih =>
      have notNewline : (c == '\n') = false := by
        rw [beq_eq_false_iff_ne]
        rintro rfl
        exact inLine List.mem_cons_self
      rw [List.cons_append, lines, notNewline]
      by_cases single : a = []
      · subst single
        cases h : lines b <;> simp [h]
      · rw [ih single (fun mem => inLine (List.mem_cons_of_mem c mem))]
        rfl

theorem lines_newline {a : List Char} (inLine : '\n' ∉ a) (b : List Char) :
    lines (a ++ '\n' :: b) = (a ++ ['\n']) :: lines b := by
  by_cases nonempty : a = []
  · subst nonempty
    rfl
  · rw [lines_append nonempty inLine]
    rfl

end BraceTemplate.Text
