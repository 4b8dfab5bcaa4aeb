/-
# BraceTemplate.Proofs.Source.Location — where a directive stands in its source

The directives of a source text are numbered as the operations of its program: texts next to each
other count as one. `WrittenAt source i line d` says that the section in braces which asks for `d`
has the number `i`, and that it stands on the line `line`, counted by the newlines in front of it.

* `exists_of_joined`: a directive other than text has the number of directives in front of it;
* `writtenAt_of_compile`: so it is for the operations of a compiled template.
-/
import BraceTemplate.Proofs.Program.WellFormed
import BraceTemplate.Proofs.Source.Enclosed

namespace BraceTemplate

set_option autoImplicit false

/-- A section in braces of a source text asks for a directive; `i` directives are in front of it,
and its line is one more than the newlines in front of it. -/
def WrittenAt (source : List Char) (i line : Nat) (d : Directive) : Prop :=
  ∃ before contents after ds, source = before ++ '{' :: (contents ++ '}' :: after) ∧
    '}' ∉ contents ∧ '\n' ∉ contents ∧ Consists before ds ∧ (joined ds).length = i ∧
    Asks ClosedRow (.ofContents contents) (some d) ∧ line = 1 + before.count '\n'

/-- A directive that is neither text, which may become part of another text, nor the end of a block,
whose label is lost. -/
def Directive.Kept : Directive → Prop
  | .text _ | .closeBlock _ => False
  | _ => True

theorem joined_concat (ds : List (Nat × Directive)) (line : Nat) (d : Directive) :
    joined (ds ++ [(line, d)]) = joinTo (joined ds) line d := by
  rw [joined, List.foldl_append]
  rfl

theorem getElem?_concat_cases {α : Type} {row : List α} {last a : α} {i : Nat}
    (found : (row ++ [last])[i]? = some a) : row[i]? = some a ∨ row.length = i ∧ last = a := by
  rcases Nat.lt_or_ge i row.length with inside | behind
  · rw [List.getElem?_append_left inside] at found
    exact .inl found
  · rw [List.getElem?_append_right behind, List.getElem?_singleton] at found
    split at found
    · exact .inr ⟨by omega, Option.some.inj found⟩
    · cases found

theorem exists_of_joined {ds : List (Nat × Directive)} {i line : Nat} {d : Directive}
    (kept : d.Kept) (found : (joined ds)[i]? = some (line, d)) :
    ∃ front back, ds = front ++ (line, d) :: back ∧ (joined front).length = i := by
  induction ds using List.reverseRecOn with
  | nil => cases found
  | append_singleton ds last ih =>
      -- An entry of the row without the last directive is there already.
      have earlier : (joined ds)[i]? = some (line, d) →
          ∃ front back, ds ++ [last] = front ++ (line, d) :: back ∧ (joined front).length = i := by
        intro found
        obtain ⟨front, back, rfl, length⟩ := ih found
        exact ⟨front, back ++ [last], by simp, length⟩
      obtain ⟨lastLine, lastD⟩ := last
      rw [joined_concat] at found
      rcases joinTo_cases (joined ds) lastLine lastD with
        ⟨front, first, before, s, -, row, same⟩ | ⟨entry, same, kinds, -, -⟩
      · rw [same] at found
        rcases getElem?_concat_cases found with inside | ⟨-, isText⟩
        · refine earlier ?_
          rw [row, List.getElem?_append_left (List.getElem?_eq_some_iff.1 inside).1, inside]
        · rw [← (Prod.mk.inj isText).2] at kept
          cases kept
      · rw [same] at found
        rcases getElem?_concat_cases found with inside | ⟨length, last⟩
        · exact earlier inside
        · obtain ⟨rfl, rfl⟩ := Prod.mk.inj last
          rcases kinds with rfl | rfl
          · exact ⟨ds, [], rfl, length⟩
          · cases kept

theorem writtenAt_of_joined {source : List Char} {ds : List (Nat × Directive)} {i line : Nat}
    {d : Directive} (consists : Consists source ds) (kept : d.Kept)
    (found : (joined ds)[i]? = some (line, d)) : WrittenAt source i line d := by
  obtain ⟨pieces, whole, reads⟩ := consists
  obtain ⟨front, back, rfl, length⟩ := exists_of_joined kept found
  obtain ⟨piecesFront, s, behind, rfl, readsFront, asks, -⟩ := reads.split
  obtain ⟨before, rest, rfl, outside, pieces⟩ := whole.split
  cases pieces with
  | run | lineEnd =>
      cases asks
      cases kept
  | braces closed inLine _ =>
      exact ⟨before, _, _, front, rfl, closed, inLine, ⟨_, outside, readsFront⟩, length, asks, rfl⟩

/-- An operation of a compiled template stands in its source at its own number. -/
theorem writtenAt_of_compile {name source : String} {t : Template} {i line : Nat} {op : Op}
    (compiled : Template.compile name source = .ok t) (kept : op.directive.Kept)
    (found : t.program.instrs[i]? = some ⟨op, line⟩) :
    WrittenAt source.toList i line op.directive := by
  obtain ⟨pieces, ds, whole, reads, same⟩ := exists_directives_of_compile compiled
  refine writtenAt_of_joined ⟨pieces, whole, reads⟩ kept ?_
  rw [← same, directivesOf, List.getElem?_map, Array.getElem?_toList, found]
  rfl

end BraceTemplate
