/-
# BraceTemplate.Proofs.Source.Joining — one source text behind another

Two source texts may be written one behind the other, in the middle of a line as well. All sections
stay what they are; only a text at the end of the first and one at the beginning of the second may
become one, and a draft makes the same nodes of one text as of both.

* `Pieces.exists_joined`: the pieces of both texts, up to texts that become one;
* `Consists.ofSource_append`: the tree of both texts is the tree of the first with that of the
  second behind it, on the lines behind the first.
-/
import BraceTemplate.Proofs.Source.Enclosed

namespace BraceTemplate

set_option autoImplicit false

open Text
open Draft (Adds)

/-! ## Pieces -/

namespace Draft

/-- Texts in a row are one text. -/
theorem addAll_text (d : Draft) (line line' : Nat) (s s' : List Char)
    (rest : List (Nat × Section)) :
    d.addAll ((line, .text (s ++ s')) :: rest) =
      d.addAll ((line, .text s) :: (line', .text s') :: rest) := by
  have both : d.pushText line (String.ofList (s ++ s')) =
      (d.pushText line (String.ofList s)).pushText line' (String.ofList s') := by
    simp only [pushText_eq, addNode_text, String.ofList_append]
  simp only [addAll, addSection, Directive.ofSection, add, both]

theorem addAll_congr {back back' : List (Nat × Section)}
    (same : ∀ d : Draft, d.addAll back = d.addAll back') (front : List (Nat × Section))
    (d : Draft) : d.addAll (front ++ back) = d.addAll (front ++ back') := by
  rw [addAll_append, addAll_append]
  cases d.addAll front with
  | ok e => exact same e
  | error error => rfl

end Draft

namespace Pieces

variable {line : Nat} {s next : List Char} {sections more : List (Nat × Section)}

/-- A text in front of pieces is a piece of its own, or a part of the first one. -/
theorem behind_text {text : List Char} (nonempty : text ≠ []) (plain : '{' ∉ text)
    (inLine : '\n' ∉ text) (pieces : Pieces line s sections) :
    ∃ joined, Pieces line (text ++ s) joined ∧
      ∀ d : Draft, d.addAll joined = d.addAll ((line, .text text) :: sections) := by
  cases pieces with
  | done => exact ⟨_, .run nonempty plain inLine (.inl rfl) (.done line), fun _ => rfl⟩
  | @run _ run rest _ nonempty' plain' inLine' ends behind =>
      have plain'' : '{' ∉ text ++ run := by simp [plain, plain']
      have inLine'' : '\n' ∉ text ++ run := by simp [inLine, inLine']
      have nonempty'' : text ++ run ≠ [] := by simp [nonempty]
      rw [← List.append_assoc]
      exact ⟨_, .run nonempty'' plain'' inLine'' ends behind,
        fun d => d.addAll_text line line text run _⟩
  | @lineEnd _ run rest _ plain' inLine' behind =>
      have plain'' : '{' ∉ text ++ run := by simp [plain, plain']
      have inLine'' : '\n' ∉ text ++ run := by simp [inLine, inLine']
      rw [← List.append_assoc]
      refine ⟨_, .lineEnd plain'' inLine'' behind, fun d => ?_⟩
      rw [List.append_assoc]
      exact d.addAll_text line line text (run ++ ['\n']) _
  | braces closed inLine' behind =>
      exact ⟨_, .run nonempty plain inLine (.inr ⟨_, rfl⟩) (.braces closed inLine' behind),
        fun _ => rfl⟩

/-- Two texts that consist of pieces make up one that does. A draft takes its pieces as those of the
first and then those of the second. -/
theorem exists_joined (first : Pieces line s sections)
    (second : Pieces (line + s.count '\n') next more) :
    ∃ joined, Pieces line (s ++ next) joined ∧
      ∀ d : Draft, d.addAll joined = d.addAll (sections ++ more) := by
  induction first with
  | done line => exact ⟨more, second, fun _ => rfl⟩
  | @run line run rest sections nonempty plain inLine _ _ ih =>
      rw [List.count_append, List.count_eq_zero_of_not_mem inLine, Nat.zero_add] at second
      obtain ⟨joined, pieces, same⟩ := ih second
      obtain ⟨whole, pieces, same'⟩ := pieces.behind_text nonempty plain inLine
      rw [List.append_assoc]
      exact ⟨whole, pieces, fun d => (same' d).trans (Draft.addAll_congr same [_] d)⟩
  | @lineEnd line run rest sections plain inLine _ ih =>
      rw [List.count_append, List.count_eq_zero_of_not_mem inLine, List.count_cons_self,
        Nat.zero_add, ← Nat.add_assoc, Nat.add_right_comm] at second
      obtain ⟨joined, pieces, same⟩ := ih second
      rw [List.append_assoc, List.cons_append]
      exact ⟨_, .lineEnd plain inLine pieces, Draft.addAll_congr same [_]⟩
  | @braces line contents rest sections closed inLine _ ih =>
      have none : ('{' :: (contents ++ '}' :: rest)).count '\n' = rest.count '\n' := by
        simp [List.count_eq_zero_of_not_mem inLine]
      rw [none] at second
      obtain ⟨joined, pieces, same⟩ := ih second
      rw [List.cons_append, List.append_assoc, List.cons_append]
      exact ⟨_, .braces closed inLine pieces, Draft.addAll_congr same [_]⟩

end Pieces

/-! ## Trees -/

/-- What a draft makes of the directives of two texts, one behind the other, it makes of those that
both texts together consist of. -/
theorem Consists.exists_joined {s s' : List Char} {ds ds' : List (Nat × Directive)}
    (one : Consists s ds) (two : Consists s' ds') {d e : Draft}
    (adds : Adds d (ds ++ onLines (· + s.count '\n') ds') e) :
    ∃ row, Consists (s ++ s') row ∧ Adds d row e := by
  obtain ⟨pieces, whole, reads⟩ := one
  obtain ⟨pieces', whole', reads'⟩ := two
  obtain ⟨joined, both, same⟩ := whole.exists_joined (whole'.shift (s.count '\n'))
  have taken := Draft.addAll_eq_ok_iff.2 ⟨_, reads.append (reads'.onLines _), adds⟩
  obtain ⟨row, readsBoth, adds⟩ := Draft.addAll_eq_ok_iff.1 ((same d).trans taken)
  exact ⟨row, ⟨joined, both, readsBoth⟩, adds⟩

/-- The tree of two source texts without a name of a block in common: that of the first, and behind
it that of the second on other lines. -/
theorem Consists.ofSource_append {s s' : List Char} {ds ds' : List (Nat × Directive)}
    {nodes nodes' : List Node} (one : Consists s ds) (two : Consists s' ds')
    (tree : Node.ofSource s = .ok nodes) (tree' : Node.ofSource s' = .ok nodes')
    (apart : ∀ name ∈ openedBlocks ds, name ∉ openedBlocks ds') :
    Node.ofSource (s ++ s') = .ok (onto nodes.reverse
      (plantAll (· + s.count '\n') (fun _ => none) nodes').reverse).reverse := by
  obtain ⟨d, adds, closed, rfl⟩ := one.ofSource_eq_ok_iff.1 tree
  obtain ⟨d', adds', closed', rfl⟩ := two.ofSource_eq_ok_iff.1 tree'
  let g : Nat → Nat := (· + s.count '\n')
  have noBlock : Draft.empty.Fixed fun _ => none := List.forall_mem_nil _
  have moved := (adds'.plant noBlock (fun _ _ => rfl) g).1
  obtain ⟨items, distinct⟩ := moved.items (by rw [Draft.plant, closed']; rfl)
  -- The second text adds to any draft what it adds to an empty one.
  obtain ⟨own, taken⟩ := items.taken distinct
  have alone : onto [] own = plantAll g (fun _ => none) d'.body :=
    congrArg Draft.body ((taken Draft.empty fun _ _ => List.not_mem_nil).unique moved)
  have new : ∀ name ∈ openedBlocks (onLines g ds'), name ∉ d.names := by
    intro name mem
    rw [openedBlocks_onLines] at mem
    rw [(adds.names List.nodup_nil).1, Draft.empty, List.append_nil, List.mem_reverse]
    exact fun mem' => apart name mem' mem
  obtain ⟨row, both, adds⟩ := one.exists_joined two (adds.trans (taken d new))
  refine both.ofSource_eq_ok_iff.2 ⟨_, adds, closed, ?_⟩
  rw [List.reverse_reverse, plantAll_reverse, List.reverse_reverse, ← alone, ← onto_onto]
  rfl

end BraceTemplate
