/-
# BraceTemplate.Proofs.Render.Verbatim — every text has a template

`verbatim s` is a source text that stands for the text `s`: each `{` is written as the section that
stands for a brace, and everything else as it is. A `}`, a line end or a percent sign means nothing
outside sections, so nothing else has to be written in another way.

* `exists_pieces_verbatim`: a draft takes the pieces of this source text as one piece of text;
* `render_verbatim`: the source text compiles to one operation at most, and renders to `s`.
-/
import BraceTemplate.Proofs.Render.Meaning
import BraceTemplate.Proofs.Source.Joining
import BraceTemplate.Proofs.Source.LineParts

namespace BraceTemplate

set_option autoImplicit false

/-- A character as it is written in a source text that stands for it. -/
def verbatimChar (c : Char) : List Char :=
  if c = '{' then ['{', '{', '}'] else [c]

/-- A source text that stands for a text. -/
def verbatim (s : String) : String :=
  String.ofList (s.toList.flatMap verbatimChar)

namespace Draft

/-- A brace that stands for itself is added as text. -/
theorem addAll_brace (d : Draft) (line : Nat) (rest : List (Nat × Section)) :
    d.addAll ((line, .ofContents ['{']) :: rest) = d.addAll ((line, .text ['{']) :: rest) := by
  have brace : Section.ofContents ['{'] = .brace '{' := by decide
  rw [brace]
  rfl

/-- A character in front of pieces that are taken as one text, which may be empty. -/
theorem addAll_textSections {pieces : List (Nat × Section)} {line' : Nat} {s : List Char}
    (same : ∀ d : Draft, d.addAll pieces = d.addAll ((textSections s).map (line', ·)))
    (d : Draft) (line : Nat) (c : Char) :
    d.addAll ((line, .text [c]) :: pieces) =
      d.addAll ((textSections (c :: s)).map (line, ·)) := by
  refine (addAll_congr same [(line, .text [c])] d).trans ?_
  by_cases empty : s = []
  · subst empty
    rfl
  · rw [textSections, if_neg empty]
    exact (d.addAll_text line line' [c] s []).symm

end Draft

/-- A draft takes a source text that stands for a text as this text, on the line where it begins. -/
theorem exists_pieces_verbatim (s : List Char) (line : Nat) :
    ∃ pieces, Pieces line (s.flatMap verbatimChar) pieces ∧
      ∀ d : Draft, d.addAll pieces = d.addAll ((textSections s).map (line, ·)) := by
  induction s generalizing line with
  | nil => exact ⟨[], .done line, fun _ => rfl⟩
  | cons c s ih =>
      rw [List.flatMap_cons, verbatimChar]
      by_cases brace : c = '{'
      · subst brace
        obtain ⟨pieces, whole, same⟩ := ih line
        have closed : '}' ∉ ['{'] := by decide
        have inLine : '\n' ∉ ['{'] := by decide
        refine ⟨_, .braces closed inLine whole, fun d => ?_⟩
        rw [d.addAll_brace]
        exact Draft.addAll_textSections same d line '{'
      rw [if_neg brace]
      by_cases newline : c = '\n'
      · subst newline
        obtain ⟨pieces, whole, same⟩ := ih (line + 1)
        have plain : '{' ∉ ([] : List Char) := List.not_mem_nil
        exact ⟨_, .lineEnd plain List.not_mem_nil whole,
          fun d => Draft.addAll_textSections same d line '\n'⟩
      · obtain ⟨pieces, whole, same⟩ := ih line
        have plain : '{' ∉ [c] := by simpa using Ne.symm brace
        have inLine : '\n' ∉ [c] := by simpa using Ne.symm newline
        obtain ⟨joined, whole, same'⟩ := whole.behind_text (List.cons_ne_nil c []) plain inLine
        exact ⟨joined, whole,
          fun d => (same' d).trans (Draft.addAll_textSections same d line c)⟩

/-- The tree of a source text that stands for a text. -/
theorem ofSource_verbatim (s : String) :
    Node.ofSource (verbatim s).toList = .ok (if s = "" then [] else [.text 1 s]) := by
  obtain ⟨pieces, whole, same⟩ := exists_pieces_verbatim s.toList 1
  rw [Node.ofSource, Section.ofSource, verbatim, String.toList_ofList, whole.sections_eq, same,
    textSections]
  by_cases empty : s = ""
  · subst empty
    rfl
  · have nonempty : s.toList ≠ [] := fun none => empty (String.toList_eq_nil_iff.1 none)
    rw [if_neg nonempty, if_neg empty]
    have kept : String.ofList s.toList = s := String.ofList_toList
    simp only [List.map_cons, List.map_nil, Draft.addAll, Draft.addSection, Directive.ofSection,
      Draft.add, kept]
    rfl

/-- **Every text can be written as a template.** With each `{` written as the section that stands
for it, and everything else as it is, a text compiles to no operation if it is empty and to one
operation that writes it if it is not, and the template renders to the text in every environment. -/
theorem render_verbatim (name s : String) :
    ∃ t, Template.compile name (verbatim s) = .ok t ∧
      t.program = ⟨if s = "" then #[] else #[⟨.text s, 1⟩], 0, []⟩ ∧
      ∀ env : Env, t.render env = .text s := by
  refine ⟨_, Template.compile_eq_ok_iff.2 ⟨_, ofSource_verbatim s, rfl⟩, ?_, fun env => ?_⟩
  · rw [Template.ofNodes]
    by_cases empty : s = "" <;> simp only [empty, if_true, if_false] <;> rfl
  · refine render_eq_text_iff.2 ?_
    by_cases empty : s = ""
    · subst empty
      rw [if_pos rfl, Template.meaning]
      simp [meaningAll, Template.ofNodes]
    · rw [if_neg empty, Template.meaning]
      simp [meaningAll, Template.ofNodes, Node.meaning]

end BraceTemplate
