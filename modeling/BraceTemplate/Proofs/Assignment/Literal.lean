/-
# BraceTemplate.Proofs.Assignment.Literal — what value an assignment binds

The value of an assignment is read in the place of `raw` in the document `v = raw`. An expression is
bound as its value, and what is no such document is bound as the text that it is. In between are
texts that begin with a value and go on with a comment or with further lines (`Spliced`): of these
the first value is bound, and the rest is lost. `value_of_parse` says that nothing else is, for
every reader of TOML that keeps to `Reader.Laws`.
-/
import BraceTemplate.Proofs.Assignment.Scope
import BraceTemplate.Proofs.Text.Padding
import BraceTemplate.Proofs.Toml.Statements

namespace BraceTemplate.Assignment

set_option autoImplicit false

open Text Toml

theorem ofToml_eq_string {v : Toml} {s : String} (same : Value.ofToml v = .string s) :
    v = .string s ∨ v = .dateTime s := by
  cases v with
  | string t =>
      rw [Value.ofToml, Value.string.injEq] at same
      exact .inl (congrArg _ same)
  | dateTime t =>
      rw [Value.ofToml, Value.string.injEq] at same
      exact .inr (congrArg _ same)
  | _ =>
      simp only [Value.ofToml] at same
      cases same

theorem isBlank_of_isSpace {c : Char} (space : isSpace c = true) : isBlank c = true := by
  simp only [isSpace, Bool.or_eq_true, beq_iff_eq] at space
  rcases space with rfl | rfl <;> decide

theorem isSpace_of_not_isBlank {c : Char} (solid : isBlank c = false) : isSpace c = false := by
  rw [Bool.eq_false_iff] at solid ⊢
  exact mt isBlank_of_isSpace solid

theorem flush_trim (raw : List Char) : ∀ c ∈ (trim raw).head?, isSpace c = false :=
  fun c first => isSpace_of_not_isBlank ((solid_trim raw).1 c first)

theorem isBareKey_v : IsBareKey "v" := by
  have chars : "v".toList = ['v'] := by decide
  rw [IsBareKey, chars, List.forall_mem_singleton]
  exact ⟨List.cons_ne_nil _ _, by decide⟩

/-! ## The document around a value -/

section

variable (R : Toml.Reader)

/-- A text begins with a value that a comment or further lines follow, and is read as a document if
a key is set to it. -/
def Spliced (raw front rest : List Char) (v : Toml) : Prop :=
  R.Begins (trim raw) front rest v ∧ Beyond rest ∧
    (R.document? (setting "v" (trim raw))).isSome

/-- The value of an assignment stands for all of its text: it is this text, or the value of the
expression that it is. -/
def Kept (raw : List Char) : Prop :=
  valueBy R raw = .string (String.ofList (trim raw)) ∨
    ∃ v, R.Expression (trim raw) v ∧ valueBy R raw = .ofToml v

end

variable {R : Toml.Reader}

theorem valueBy_of_none {raw : List Char} (refused : R.document? (setting "v" (trim raw)) = none) :
    valueBy R raw = .string (String.ofList (trim raw)) := by
  rw [valueBy, literalBy, refused, Value.ofToml]

theorem valueBy_of_some {raw : List Char} {entries : List (String × Toml)} {v : Toml}
    (parsed : R.document? (setting "v" (trim raw)) = some entries)
    (found : Dict.find? entries "v" = some v) : valueBy R raw = .ofToml v := by
  rw [valueBy, literalBy, parsed]
  simp only [found, Option.getD_some]

section

variable (laws : R.Laws)
include laws

theorem expression_of_begins {s front rest : List Char} {v : Toml}
    (begins : R.Begins s front rest v) : R.Expression front v := by
  obtain ⟨split, read⟩ := begins
  obtain ⟨front', split', whole⟩ := laws.alone read
  rwa [List.append_cancel_right (split.symm.trans split')]

/-- An expression is bound as its value. -/
theorem value_of_expression {raw : List Char} {v : Toml} (whole : R.Expression (trim raw) v) :
    valueBy R raw = .ofToml v := by
  refine valueBy_of_some (laws.pair isBareKey_v whole) ?_
  rw [Dict.find?, if_pos rfl]

/-- If a document is read, the value is what the text begins with, and is followed by nothing or by
something beyond it. -/
theorem exists_begins {raw : List Char} {entries : List (String × Toml)}
    (parsed : R.document? (setting "v" (trim raw)) = some entries) :
    ∃ front rest v, R.Begins (trim raw) front rest v ∧ (rest = [] ∨ Beyond rest) ∧
      valueBy R raw = .ofToml v := by
  obtain ⟨v, rest, read, ends, found⟩ := laws.line isBareKey_v (flush_trim raw) parsed
  obtain ⟨front, split, -⟩ := laws.alone read
  refine ⟨front, rest, v, ⟨split, read⟩, ?_, valueBy_of_some parsed found⟩
  refine ends.imp_left fun spaces => ?_
  -- a text without blanks at its ends does not end in spaces
  rcases rest.eq_nil_or_concat with empty | ⟨before, c, rfl⟩
  · exact empty
  · have last : (trim raw).getLast? = some c := by
      rw [split, List.concat_eq_append, ← List.append_assoc, List.getLast?_concat]
    have solid := isSpace_of_not_isBlank ((solid_trim raw).2 c last)
    rw [dropWhile_eq_nil_iff.1 spaces c (by simp)] at solid
    cases solid

theorem Spliced.value_eq {raw front rest : List Char} {v : Toml}
    (spliced : Spliced R raw front rest v) : valueBy R raw = .ofToml v := by
  obtain ⟨⟨-, read⟩, -, isDocument⟩ := spliced
  obtain ⟨entries, parsed⟩ := Option.isSome_iff_exists.1 isDocument
  obtain ⟨front', rest', v', ⟨-, read'⟩, -, bound⟩ := exists_begins laws parsed
  rw [bound, (Prod.mk.inj (Option.some.inj (read.symm.trans read'))).1]

omit laws in
theorem exists_mem_of_beyond {rest : List Char} (beyond : Beyond rest) :
    '#' ∈ rest ∨ '\n' ∈ rest := by
  have mem {c : Char} (mem : c ∈ skipSpaces rest) : c ∈ rest :=
    (List.dropWhile_sublist _).subset mem
  obtain ⟨more, begins | begins | begins⟩ := beyond
  · exact .inl (mem (by simp [begins]))
  · exact .inr (mem (by simp [begins]))
  · exact .inr (mem (by simp [begins]))

/-- What is lost of a text is not in its value. -/
theorem Spliced.not_kept {raw front rest : List Char} {v : Toml}
    (spliced : Spliced R raw front rest v) : ¬ Kept R raw := by
  have bound := spliced.value_eq laws
  obtain ⟨⟨split, read⟩, beyond, -⟩ := spliced
  rintro (asText | ⟨u, whole, -⟩)
  · rcases ofToml_eq_string (bound.symm.trans asText) with rfl | rfl
    · have shorter := laws.string read
      rw [String.length_ofList] at shorter
      omega
    · obtain ⟨noSign, noEnd⟩ := laws.dateTime read
      rw [String.toList_ofList, split] at noSign noEnd
      rcases exists_mem_of_beyond beyond with mem | mem
      · exact noSign (List.mem_append_right front mem)
      · exact noEnd (List.mem_append_right front mem)
  · obtain ⟨-, rfl⟩ := Prod.mk.inj (Option.some.inj (read.symm.trans whole))
    rcases exists_mem_of_beyond beyond with mem | mem <;> cases mem

theorem kept_of_not_spliced {raw : List Char}
    (whole : ¬ ∃ front rest v, Spliced R raw front rest v) : Kept R raw := by
  cases parsed : R.document? (setting "v" (trim raw)) with
  | none => exact .inl (valueBy_of_none parsed)
  | some entries =>
      right
      obtain ⟨front, rest, v, begins, rfl | beyond, bound⟩ := exists_begins laws parsed
      · exact ⟨v, begins.2, bound⟩
      · have isDocument : (R.document? (setting "v" (trim raw))).isSome := by rw [parsed]; rfl
        exact absurd ⟨front, rest, v, begins, beyond, isDocument⟩ whole

end

/-- **All of a value is bound, unless it is a document with more than one value.** An assignment
binds at its path the value of its text: that of the expression that the text without the blanks
around it is, or else the text itself. The one exception is a text that begins with an expression,
goes on with a comment or further lines and makes a document: of this the first expression is bound
and the rest is lost. So it is with every reader that does what TOML says. -/
theorem value_of_parse {R : Toml.Reader} (laws : R.Laws) {text : String} {parts : List (List Char)}
    {raw : List Char} {d : Context} (divided : Divided text parts raw)
    (parsed : parseBy R text = .ok d) :
    d.at? (path parts) = some (valueBy R raw) ∧
      (∀ v, R.Expression (trim raw) v → valueBy R raw = .ofToml v) ∧
      (∀ front rest v, Spliced R raw front rest v →
        trim raw = front ++ rest ∧ R.Expression front v ∧ valueBy R raw = .ofToml v) ∧
      (Kept R raw ↔ ¬ ∃ front rest v, Spliced R raw front rest v) := by
  refine ⟨?_, fun v => value_of_expression laws, ?_, ?_, kept_of_not_spliced laws⟩
  · rw [Context.at?, vars_of_parse divided parsed]
    exact Value.at?_nested (valueBy R raw) (path parts)
  · intro front rest v spliced
    exact ⟨spliced.1.1, expression_of_begins laws spliced.1, spliced.value_eq laws⟩
  · rintro kept ⟨front, rest, v, spliced⟩
    exact spliced.not_kept laws kept

/-- A list is bound whole, with the number sign in its string. -/
theorem value_of_parse_tags :
    Toml.reader.Laws ∧ ∃ d, parse "site.tags = [1, \"# 2\"] " = .ok d ∧
      d.at? ["site", "tags"] = some (.list [.int 1, .string "# 2"]) ∧
      ¬ ∃ front rest v, Spliced Toml.reader " [1, \"# 2\"] ".toList front rest v := by
  have divided : Divided "site.tags = [1, \"# 2\"] " ["site".toList, "tags ".toList]
      " [1, \"# 2\"] ".toList :=
    ⟨by simp, by decide, by decide⟩
  obtain ⟨d, parsed⟩ := (exists_parse_iff Toml.reader _).2 ⟨_, _, divided, by decide⟩
  obtain ⟨bound, values, -, whole⟩ := value_of_parse reader_laws divided parsed
  have keys : path ["site".toList, "tags ".toList] = ["site", "tags"] := by cbv
  have trimmed : trim " [1, \"# 2\"] ".toList = "[1, \"# 2\"]".toList := by decide
  have list : Toml.reader.Expression (trim " [1, \"# 2\"] ".toList)
      (.array [.integer 1, .string "# 2"]) := by
    rw [trimmed]
    exact reader_value?_eq_some_iff.2 ⟨20, _, by cbv, by cbv⟩
  rw [keys, values _ list] at bound
  exact ⟨reader_laws, d, parsed, bound, whole.1 (.inr ⟨_, list, values _ list⟩)⟩

/-- Of a number with a comment behind it only the number is bound. -/
theorem parse_loses_comment :
    (∃ d, parse "a=1 # c" = .ok d ∧ d.at? ["a"] = some (.int 1)) ∧
      Divided "a=1 # c" ["a".toList] "1 # c".toList ∧ ¬ Kept Toml.reader "1 # c".toList := by
  have divided : Divided "a=1 # c" ["a".toList] "1 # c".toList :=
    ⟨by simp, by decide, by decide⟩
  have trimmed : trim "1 # c".toList = "1 # c".toList := by decide
  have spliced : Spliced Toml.reader "1 # c".toList "1".toList " # c".toList (.integer 1) := by
    rw [Spliced, trimmed]
    exact ⟨⟨by decide, reader_value?_eq_some_iff.2 ⟨10, _, by cbv, by cbv⟩⟩,
      ⟨" c".toList, .inl (by decide)⟩, by cbv⟩
  obtain ⟨d, parsed⟩ := (exists_parse_iff Toml.reader _).2 ⟨_, _, divided, by decide⟩
  refine ⟨⟨d, parsed, ?_⟩, divided, spliced.not_kept reader_laws⟩
  have keys : path ["a".toList] = ["a"] := by cbv
  rw [Context.at?, vars_of_parse divided parsed, keys, spliced.value_eq reader_laws]
  rfl

end BraceTemplate.Assignment
