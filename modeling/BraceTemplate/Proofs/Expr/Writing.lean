/-
# BraceTemplate.Proofs.Expr.Writing — how expressions and calls may be written

`Step.Written` lists the spellings of a step: a key that is a name after a dot, any key in quotes
that it does not contain, and an index with or without brackets and with any zeros in front. Blanks
may stand inside brackets, and by `Composed` around the path and around each modifier.

`CallArgument.source` writes a call whose arguments are spelled so.

* `Step.Written.admitted`: each spelling is read as its step and leaves no bracket open;
* `CallArgument.spelled_call`: what the call asks for;
* `written_is_read`: every spelling of an expression is read as this expression, and every call
  compiles to one operation with its arguments in order.
-/
import Mathlib
import BraceTemplate.Proofs.Expr.Grammar
import BraceTemplate.Proofs.Source.Enclosed

namespace BraceTemplate

set_option autoImplicit false

open Text

/-- The spellings of a step. -/
inductive Step.Written : List Char → Step → Prop where
  | name {key : String} (valid : isName key.toList = true) : Written ('.' :: key.toList) (.key key)
  | quoted {key : String} {q : Char} {inner : List Char} (quote : Expr.isQuote q = true)
      (absent : q ∉ key.toList) (padded : Padded inner (q :: (key.toList ++ [q]))) :
      Written ('[' :: (inner ++ [']'])) (.key key)
  | dotted (zeros : Nat) (i : UInt64) :
      Written ('.' :: (List.replicate zeros '0' ++ digits i)) (.index i)
  | index {zeros : Nat} {i : UInt64} {inner : List Char}
      (padded : Padded inner (List.replicate zeros '0' ++ digits i)) :
      Written ('[' :: (inner ++ [']'])) (.index i)

theorem denotes_digits (zeros : Nat) (i : UInt64) :
    Denotes (List.replicate zeros '0' ++ Step.digits i) i := by
  refine ⟨fun empty => ?_, isDigits_digits zeros i.toNat, valueOf_digits zeros i.toNat⟩
  exact Nat.toDigits_ne_nil (List.append_eq_nil_iff.1 empty).2

theorem Step.Written.admitted {w : List Char} {step : Step} (written : Step.Written w step) :
    Step.Admitted 0 w step := by
  cases written with
  | name valid => exact .name valid
  | quoted quote absent padded =>
      exact .quoted quote padded ((Expr.Bracketed.of_quoted quote absent).padded padded)
  | dotted zeros i => exact .dotted (denotes_digits zeros i)
  | index padded => exact .index (denotes_digits _ _) padded

/-- An argument of a call, with the text of its expression. -/
structure CallArgument where
  key : String
  text : String
  value : Expr

namespace CallArgument

/-- A key that is a name and a spelling of the value that neither ends the section nor the line. -/
structure Written (a : CallArgument) : Prop where
  name : isName a.key.toList = true
  value : Expr.Composed Step.Written a.text.toList a.value
  closed : '}' ∉ a.text.toList
  inLine : '\n' ∉ a.text.toList

/-- The text of an argument behind its comma. -/
def chars (a : CallArgument) : List Char :=
  ' ' :: (a.key.toList ++ '=' :: a.text.toList)

/-- A source text that is one call. -/
def source (callee : String) (arguments : List CallArgument) : String :=
  "\x7b%call " ++ callee ++
    String.join (arguments.map fun a => ", " ++ a.key ++ "=" ++ a.text) ++ "%\x7d"

end CallArgument

namespace Expr

/-! ## Blanks at the end -/

/-- Blanks at the end of a text belong to its last part. -/
theorem exists_trimEnd_joined {β : Type} {separator : Char} (noBlank : isBlank separator = false)
    {R : List Char → β → Prop} (kept : ∀ part x, R part x → R (trimEnd part) x)
    {parts : List (List Char)} {xs : List β} (all : List.Forall₂ R parts xs) :
    ∀ {P : List Char → Prop} {first : List Char}, (∀ part, P part → P (trimEnd part)) → P first →
      ∃ first' parts', trimEnd (first ++ parts.flatMap (separator :: ·)) =
          first' ++ parts'.flatMap (separator :: ·) ∧ P first' ∧ List.Forall₂ R parts' xs := by
  induction all with
  | nil =>
      intro P first kept' holds
      exact ⟨trimEnd first, [], by simp, kept' first holds, .nil⟩
  | @cons part x parts xs holds' _ ih =>
      intro P first _ holds
      obtain ⟨part', parts', same, last, others⟩ :=
        ih (P := (R · x)) (fun part => kept part x) holds'
      refine ⟨first, part' :: parts', ?_, holds, .cons last others⟩
      rw [List.flatMap_cons, List.cons_append, trimEnd_append_cons _ noBlank, same]
      rfl

theorem Composed.trimEnd {Spells : List Char → Step → Prop} {s : List Char} {e : Expr}
    (composed : Composed Spells s e) (reads : ∀ w step, Spells w step → ReadsAs w step) :
    Composed Spells (trimEnd s) e := by
  obtain ⟨path, texts, parts, rfl, padded, name, steps, modifiers⟩ := composed
  have solid := solid_path name (steps.imp reads)
  have nonempty : e.root.toList ++ texts.flatten ≠ [] :=
    fun empty => ne_nil_of_isName name (List.append_eq_nil_iff.1 empty).1
  have kept : ∀ part name, IsModifier part name → IsModifier (Text.trimEnd part) name :=
    fun part name modifier => ⟨modifier.1,
      modifier.2.trimEnd (ne_nil_of_isName modifier.1) (solid_of_isName modifier.1)⟩
  obtain ⟨path', parts', same, padded', modifiers'⟩ :=
    exists_trimEnd_joined (P := (Padded · (e.root.toList ++ texts.flatten))) Divides.bar.noBlank
      kept modifiers (fun _ padded => padded.trimEnd nonempty solid) padded
  exact ⟨path', texts, parts', same, padded', name, steps, modifiers'⟩

end Expr

namespace CallArgument

open BraceTemplate.Expr

/-- The text of an argument behind its comma, perhaps with fewer blanks at its end. -/
def Spells (part : List Char) (a : CallArgument) : Prop :=
  isName a.key.toList = true ∧ ∃ text, part = ' ' :: (a.key.toList ++ '=' :: text) ∧
    Composed Step.Written text a.value

namespace Spells

variable {part : List Char} {a : CallArgument}

theorem trimEnd (spells : Spells part a) : Spells (trimEnd part) a := by
  obtain ⟨name, text, rfl, written⟩ := spells
  have value : Composed Step.Written (Text.trimEnd text) a.value :=
    Composed.trimEnd written fun w step found => ⟨0, found.admitted⟩
  have noBlank : isBlank '=' = false := by decide
  exact ⟨name, Text.trimEnd text, trimEnd_append_cons (' ' :: a.key.toList) noBlank text, value⟩

theorem isArgument (spells : Spells part a) :
    IsArgument (Composed (Step.Admitted 0)) part (a.key, a.value) := by
  obtain ⟨name, text, rfl, written⟩ := spells
  have padded : Padded (' ' :: a.key.toList) a.key.toList :=
    ⟨[' '], [], by simp, by simp; decide, nofun⟩
  have key : trim (' ' :: a.key.toList) = a.key.toList :=
    (trim_eq_iff (solid_of_isName name)).2 padded
  have noEquals : '=' ∉ ' ' :: a.key.toList := by
    rw [List.mem_cons, not_or]
    exact ⟨by decide, not_mem_of_isName name (by decide)⟩
  have value : Composed (Step.Admitted 0) text a.value :=
    written.mono fun w step => Step.Written.admitted
  exact ⟨_, text, rfl, noEquals, by rw [key]; exact name, by rw [key, String.ofList_toList], value⟩

end Spells

/-- What a call says behind its keyword. -/
def argumentChars (callee : String) (arguments : List CallArgument) : List Char :=
  callee.toList ++ (arguments.map chars).flatMap (',' :: ·)

variable {callee : String} {arguments : List CallArgument}

/-- The text behind the keyword begins with the callee. -/
theorem argumentChars_begins (arguments : List CallArgument) (name : isName callee.toList = true) :
    argumentChars callee arguments ≠ [] ∧
      ∀ c ∈ (argumentChars callee arguments).head?, isBlank c = false := by
  have nonempty : callee.toList ≠ [] := ne_nil_of_isName name
  constructor
  · intro empty
    exact nonempty (List.append_eq_nil_iff.1 empty).1
  · intro c mem
    rw [argumentChars, List.head?_append_of_ne_nil _ nonempty] at mem
    exact (solid_of_isName name).1 c mem

theorem words_call (name : isName callee.toList = true) :
    Words (trim ("call ".toList ++ argumentChars callee arguments)) "call".toList
      (trim (argumentChars callee arguments)) := by
  obtain ⟨nonempty, begins⟩ := argumentChars_begins arguments name
  have keyword : ∀ c ∈ "call ".toList.head?, isBlank c = false := by
    rintro c ⟨⟩
    decide
  refine ⟨(Words.alone (by decide)).1, .inr ⟨' ', trim (argumentChars callee arguments),
    by decide, ?_, ?_⟩⟩
  · rw [trim_append (by decide) keyword nonempty begins]
    rfl
  · exact (Padded.of_trim _).trim_eq

/-- Without the blanks at its end a call is a callee and a row of arguments. -/
theorem exists_row (name : isName callee.toList = true) (written : ∀ a ∈ arguments, a.Written) :
    ∃ callee' row, trim (argumentChars callee arguments) = callee' ++ row.flatMap (',' :: ·) ∧
      Padded callee' callee.toList ∧ List.Forall₂ Spells row arguments := by
  obtain ⟨-, begins⟩ := argumentChars_begins arguments name
  have ends : trim (argumentChars callee arguments) = trimEnd (argumentChars callee arguments) := by
    rw [trim, trimStart, dropWhile_eq_self begins]
  have all : List.Forall₂ Spells (arguments.map chars) arguments :=
    List.forall₂_map_left_iff.2 (List.forall₂_same.2 fun a mem =>
      ⟨(written a mem).name, _, rfl, (written a mem).value⟩)
  rw [ends]
  exact exists_trimEnd_joined (P := (Padded · callee.toList)) Divides.comma.noBlank
    (fun _ _ => Spells.trimEnd) all
    (fun _ padded => padded.trimEnd (ne_nil_of_isName name) (solid_of_isName name)) (.refl _)

theorem spelled_call (name : isName callee.toList = true) (written : ∀ a ∈ arguments, a.Written)
    (distinct : (arguments.map key).Nodup) :
    Spelled ClosedRow (trim ("call ".toList ++ argumentChars callee arguments))
      (.call callee (arguments.map fun a => (a.key, a.value))) := by
  obtain ⟨callee', row, shape, padded, spells⟩ := exists_row name written
  have same : trim callee' = callee.toList := (trim_eq_iff (solid_of_isName name)).2 padded
  have valid : List.Forall₂ (IsArgument Valid) row (arguments.map fun a => (a.key, a.value)) :=
    List.forall₂_map_right_iff.2 (spells.imp fun _ _ spells =>
      spells.isArgument.mono fun _ _ => Valid.of_closed)
  have closed : ∀ part ∈ row, ∃ argument, IsArgument (Composed (Step.Admitted 0)) part argument :=
    forall_of_forall₂ spells fun _ _ spells => ⟨_, spells.isArgument⟩
  have call : Spelled ClosedRow _ _ := .call (shape ▸ words_call name) (same.symm ▸ name) valid
    (by rwa [List.map_map]) fun part mem => closed part (List.dropLast_subset _ mem)
  rwa [same, String.ofList_toList] at call

/-- What stands between the braces of a call. -/
def contents (callee : String) (arguments : List CallArgument) : List Char :=
  '%' :: ("call ".toList ++ argumentChars callee arguments ++ ['%'])

theorem toList_source (callee : String) (arguments : List CallArgument) :
    (source callee arguments).toList = '{' :: (contents callee arguments ++ ['}']) := by
  have opens : "\x7b%call ".toList = '{' :: '%' :: "call ".toList := by decide
  have closes : "%\x7d".toList = ['%', '}'] := by decide
  have comma : ", ".toList = [',', ' '] := by decide
  have equals : "=".toList = ['='] := by decide
  simp only [source, contents, argumentChars, chars, String.toList_append, String.toList_join,
    List.flatMap_map, opens, closes, comma, equals, List.append_assoc, List.cons_append,
    List.nil_append]

/-- Whatever stands between the braces of a call stands in a text, belongs to a name or is fixed. -/
theorem not_mem_contents {c : Char} (other : c ∉ ['%', 'c', 'a', 'l', ' ', ',', '='])
    (noName : continuesName c = false) (callable : isName callee.toList = true)
    (names : ∀ a ∈ arguments, isName a.key.toList = true)
    (texts : ∀ a ∈ arguments, c ∉ a.text.toList) : c ∉ contents callee arguments := by
  have keyword : "call ".toList = ['c', 'a', 'l', 'l', ' '] := by decide
  have callee' : c ∉ callee.toList := not_mem_of_isName callable noName
  have keys : ∀ a ∈ arguments, c ∉ a.key.toList :=
    fun a mem => not_mem_of_isName (names a mem) noName
  simp only [List.mem_cons, List.not_mem_nil, or_false, not_or] at other
  simp only [contents, argumentChars, chars, keyword, List.flatMap_map, List.mem_cons,
    List.mem_append, List.mem_flatMap, List.not_mem_nil, or_false, not_or, not_exists, not_and,
    other, callee', not_false_eq_true, true_and]
  exact fun a mem => ⟨keys a mem, texts a mem⟩

theorem exists_call (name : String) (callable : isName callee.toList = true)
    (written : ∀ a ∈ arguments, a.Written) (distinct : (arguments.map key).Nodup) :
    ∃ t, Template.compile name (source callee arguments) = .ok t ∧
      t.program.instrs = #[⟨.call callee (arguments.map fun a => (a.key, a.value)), 1⟩] := by
  have names : ∀ a ∈ arguments, isName a.key.toList = true := fun a mem => (written a mem).name
  have closed : '}' ∉ contents callee arguments :=
    not_mem_contents (by decide) (by decide) callable names fun a mem => (written a mem).closed
  have inLine : '\n' ∉ contents callee arguments :=
    not_mem_contents (by decide) (by decide) callable names fun a mem => (written a mem).inLine
  have asks : Asks ClosedRow _ _ := .action (spelled_call callable written distinct)
  rw [← ofContents_action, ← contents] at asks
  have nothing : Consists [] [] := ⟨[], .done 1, .done⟩
  have consists := nothing.between closed inLine asks nothing
  have tree := consists.ofSource_eq_ok_iff.2 ⟨_, .single rfl, rfl, rfl⟩
  rw [List.nil_append, ← toList_source] at tree
  exact ⟨_, Template.compile_eq_ok_iff.2 ⟨_, tree, rfl⟩, rfl⟩

end CallArgument

/-- **Every spelling is read.** A text that spells an expression is read as this expression, and a
call whose arguments are spelled so compiles to one operation with these arguments in order. -/
theorem written_is_read :
    (∀ (text : String) (e : Expr), Expr.Composed Step.Written text.toList e →
      Expr.parse text = .ok e) ∧
    ∀ (name callee : String) (arguments : List CallArgument), isName callee.toList = true →
      (∀ a ∈ arguments, a.Written) → (arguments.map CallArgument.key).Nodup →
      ∃ t, Template.compile name (CallArgument.source callee arguments) = .ok t ∧
        t.program.instrs = #[⟨.call callee (arguments.map fun a => (a.key, a.value)), 1⟩] := by
  constructor
  · intro text e written
    exact Expr.ofChars_eq_ok_iff.2 (written.mono fun w step found => .of_closed found.admitted)
  · intro name callee arguments callable written distinct
    exact CallArgument.exists_call name callable written distinct

/-- A text with a separator in a key, zeros in front of an index and blanks, and a call with it. -/
theorem written_is_read_separators :
    Expr.parse "m['a|b,]'][ 007 ].k | trim" =
        .ok ⟨"m", [.key "a|b,]", .index 7, .key "k"], ["trim"]⟩ ∧
      ∃ t, Template.compile "t" "\x7b%call f, x=m['a|b,]'][ 007 ].k | trim%\x7d" = .ok t ∧
        t.program.instrs =
          #[⟨.call "f" [("x", ⟨"m", [.key "a|b,]", .index 7, .key "k"], ["trim"]⟩)], 1⟩] := by
  have space : ∀ c ∈ [' '], isBlank c = true := List.forall_mem_singleton.2 (by decide)
  have first : Step.Written _ (.key "a|b,]") :=
    .quoted (q := '\'') (by decide) (by decide) (.refl _)
  have zeros : Padded _ (List.replicate 2 '0' ++ Step.digits 7) := ⟨[' '], [' '], rfl, space, space⟩
  have second : Step.Written _ (.index 7) := .index zeros
  have third : Step.Written _ (.key "k") := .name (by decide)
  have written : Expr.Composed Step.Written "m['a|b,]'][ 007 ].k | trim".toList
      ⟨"m", [.key "a|b,]", .index 7, .key "k"], ["trim"]⟩ :=
    ⟨_, _, [' ' :: "trim".toList], by cbv,
      ⟨[], [' '], rfl, nofun, space⟩, by decide,
      .cons first (.cons second (.cons third .nil)),
      .cons ⟨by decide, [' '], [], by cbv, space, nofun⟩ .nil⟩
  obtain ⟨parses, compiles⟩ := written_is_read
  refine ⟨parses _ _ written, ?_⟩
  exact compiles "t" "f" [⟨"x", "m['a|b,]'][ 007 ].k | trim", _⟩] (by decide)
    (List.forall_mem_singleton.2 ⟨by decide, written, by decide, by decide⟩)
    (List.nodup_singleton _)

end BraceTemplate
