/-
# BraceTemplate.Proofs.Source.Wording — how directives are written

A directive is a keyword and its arguments, with blanks between them. `Spelled Row action d` says so
for each directive, and `Asks Row s a` says what a section asks for. A call has a row of arguments
with commas in front of them, and `Row` restricts these rows. `AnyRow` is the grammar itself. The
division at commas counts brackets that a key opens outside quotes, so a call is read only where no
argument leaves one open in front of a comma, and reading finds exactly what `ClosedRow` allows:

* `readAction_eq_ok_iff`: an action is read as a directive if and only if it is spelled so;
* `ofSection_eq_ok_iff`: likewise for any section;
* `kind_of_readAction`: an action that is not read has an unknown keyword or is malformed.
-/
import Mathlib.Data.List.Nodup
import BraceTemplate.Directive
import BraceTemplate.Proofs.Expr.Grammar

namespace BraceTemplate

set_option autoImplicit false

open Text

/-- The first word of a text and the rest of it, without the blanks around the rest. -/
def Words (s first rest : List Char) : Prop :=
  (∀ c ∈ first, isBlank c = false) ∧
    (s = first ∧ rest = [] ∨
      ∃ blank tail, isBlank blank = true ∧ s = first ++ blank :: tail ∧ rest = trim tail)

/-- An argument of a call: a name, an equals sign and an expression, given how expressions are
spelled. -/
def IsArgument (Spells : List Char → Expr → Prop) (s : List Char) (argument : String × Expr) :
    Prop :=
  ∃ key value, s = key ++ '=' :: value ∧ '=' ∉ key ∧ isName (trim key) = true ∧
    argument.1 = String.ofList (trim key) ∧ Spells value argument.2

/-- Any row of arguments. -/
def AnyRow (_ : List (List Char)) : Prop :=
  True

/-- A row of arguments none of which leaves a bracket open in front of a comma. -/
def ClosedRow (row : List (List Char)) : Prop :=
  ∀ part ∈ row.dropLast, ∃ argument, IsArgument (Expr.Composed (Step.Admitted 0)) part argument

/-- The directive that an action spells. -/
inductive Spelled (Row : List (List Char) → Prop) (action : List Char) : Directive → Prop where
  | openIf {condition : List Char} {e : Expr} (words : Words action "if".toList condition)
      (valid : Expr.Valid condition e) : Spelled Row action (.openIf e)
  | orElse (words : Words action "else".toList []) : Spelled Row action .orElse
  | closeIf (words : Words action "endif".toList []) : Spelled Row action .closeIf
  | openFor {arguments item collection : List Char} {e : Expr}
      (words : Words action "for".toList arguments) (parts : Words arguments item collection)
      (name : isName item = true) (valid : Expr.Valid collection e) :
      Spelled Row action (.openFor (String.ofList item) e)
  | closeFor (words : Words action "endfor".toList []) : Spelled Row action .closeFor
  | openBlock {name : List Char} (words : Words action "block".toList name)
      (valid : isName name = true) : Spelled Row action (.openBlock (String.ofList name))
  /-- Any label is read; whether it is the name of the block is seen when the block is closed. -/
  | closeBlock {label : List Char} (words : Words action "endblock".toList label) :
      Spelled Row action (.closeBlock (String.ofList label))
  | call {callee : List Char} {row : List (List Char)} {values : List (String × Expr)}
      (words : Words action "call".toList (callee ++ row.flatMap (',' :: ·)))
      (name : isName (trim callee) = true)
      (valid : List.Forall₂ (IsArgument Expr.Valid) row values)
      (distinct : (values.map Prod.fst).Nodup) (allowed : Row row) :
      Spelled Row action (.call (String.ofList (trim callee)) values)

/-- What a section asks for, if anything. -/
inductive Asks (Row : List (List Char) → Prop) : Section → Option Directive → Prop where
  | text (s : List Char) : Asks Row (.text s) (some (.text (String.ofList s)))
  | brace (c : Char) : Asks Row (.brace c) (some (.text (String.singleton c)))
  | comment : Asks Row .comment none
  | nothing : Asks Row .nothing none
  | output {s : List Char} {e : Expr} (valid : Expr.Valid s e) :
      Asks Row (.output s) (some (.output e))
  | action {s : List Char} {d : Directive} (spelled : Spelled Row s d) :
      Asks Row (.action s) (some d)

/-- The keywords of directives. -/
def Directive.keywords : List String :=
  ["if", "else", "endif", "for", "endfor", "block", "endblock", "call"]

/-! ## Words -/

theorem words_iff {s first rest : List Char} :
    Words s first rest ↔ Directive.keywordAndArguments s = (first, rest) := by
  rw [Directive.keywordAndArguments]
  constructor
  · rintro ⟨noBlank, ⟨rfl, rfl⟩ | ⟨blank, tail, found, rfl, rfl⟩⟩
    · rw [cutAt?_eq_none_iff.2 noBlank]
    · rw [cutAt?_append noBlank found]
  · intro found
    split at found
    · rename_i none
      obtain ⟨rfl, rfl⟩ := Prod.mk.inj found
      exact ⟨cutAt?_eq_none_iff.1 none, .inl ⟨rfl, rfl⟩⟩
    · rename_i keyword tail some
      obtain ⟨rfl, rfl⟩ := Prod.mk.inj found
      obtain ⟨blank, isBlank, noBlank, same⟩ := eq_of_cutAt?_eq_some some
      exact ⟨noBlank, .inr ⟨blank, tail, isBlank, same, rfl⟩⟩

theorem Words.unique {s first first' rest rest' : List Char} (words : Words s first rest)
    (words' : Words s first' rest') : first = first' ∧ rest = rest' :=
  Prod.mk.inj ((words_iff.1 words).symm.trans (words_iff.1 words'))

/-- A word by itself. -/
theorem Words.alone {s : List Char} (noBlank : s.any isBlank = false) : Words s s [] :=
  ⟨fun c mem => Bool.eq_false_iff.2 (List.any_eq_false.1 noBlank c mem), .inl ⟨rfl, rfl⟩⟩

theorem exists_words (s : List Char) : ∃ first rest, Words s first rest :=
  ⟨_, _, words_iff.2 rfl⟩

theorem IsArgument.mono {Spells Spells' : List Char → Expr → Prop} {part : List Char}
    {argument : String × Expr} (isArgument : IsArgument Spells part argument)
    (weaker : ∀ s e, Spells s e → Spells' s e) : IsArgument Spells' part argument := by
  obtain ⟨key, value, whole, first, name, same, spelled⟩ := isArgument
  exact ⟨key, value, whole, first, name, same, weaker _ _ spelled⟩

namespace Directive

/-! ## Arguments -/

/-- Nothing is no expression. -/
theorem not_valid_nil (e : Expr) : ¬ Expr.Valid [] e := by
  rw [← Expr.ofChars_eq_ok_iff]
  nofun

theorem readExpr_eq_ok_iff {s : List Char} {e : Expr} :
    readExpr s = .ok e ↔ Expr.Valid s e := by
  rw [readExpr, ← Expr.ofChars_eq_ok_iff]
  cases Expr.ofChars s <;> simp [Except.mapError]

theorem readBare_eq_ok_iff {keyword : String} {arguments : List Char} {d found : Directive} :
    readBare keyword arguments d = .ok found ↔ arguments = [] ∧ found = d := by
  rw [readBare]
  cases arguments <;> simp [eq_comm]

theorem readIf_eq_ok_iff {arguments : List Char} {d : Directive} :
    readIf arguments = .ok d ↔ ∃ e, Expr.Valid arguments e ∧ d = .openIf e := by
  rw [readIf]
  split
  · rename_i empty
    rw [List.isEmpty_iff.1 empty]
    constructor
    · intro read
      cases read
    · rintro ⟨e, valid, -⟩
      exact absurd valid (not_valid_nil e)
  · rw [bind_eq_ok_iff]
    simp only [readExpr_eq_ok_iff, pure, Except.pure, Except.ok.injEq, @eq_comm _ d]

theorem readFor_eq_ok_iff {arguments : List Char} {d : Directive} :
    readFor arguments = .ok d ↔
      ∃ item collection e, Words arguments item collection ∧ isName item = true ∧
        Expr.Valid collection e ∧ d = .openFor (String.ofList item) e := by
  have words : ∀ item collection, Words arguments item collection ↔
      keywordAndArguments arguments = (item, collection) := fun _ _ => words_iff
  simp only [words, keywordAndArguments, readFor]
  cases cutAt? isBlank arguments with
  | none =>
      constructor
      · intro read
        cases read
      · rintro ⟨item, collection, e, same, -, valid, -⟩
        rw [← (Prod.mk.inj same).2] at valid
        exact absurd valid (not_valid_nil e)
  | some parts =>
      obtain ⟨item, tail⟩ := parts
      simp only
      constructor
      · intro read
        split at read
        · rename_i name
          split at read
          · cases read
          · obtain ⟨e, valid, same⟩ := bind_eq_ok_iff.1 read
            exact ⟨item, trim tail, e, rfl, name, readExpr_eq_ok_iff.1 valid,
              (Except.ok.inj same).symm⟩
        · cases read
      · rintro ⟨item', collection, e, same, name, valid, rfl⟩
        obtain ⟨rfl, rfl⟩ := Prod.mk.inj same
        have nonempty : (trim tail).isEmpty = false := by
          rw [Bool.eq_false_iff]
          intro empty
          rw [List.isEmpty_iff.1 empty] at valid
          exact absurd valid (not_valid_nil e)
        rw [if_pos name, nonempty, readExpr_eq_ok_iff.2 valid]
        rfl

theorem readBlock_eq_ok_iff {arguments : List Char} {d : Directive} :
    readBlock arguments = .ok d ↔
      isName arguments = true ∧ d = .openBlock (String.ofList arguments) := by
  rw [readBlock]
  split
  · rename_i empty
    rw [List.isEmpty_iff.1 empty]
    constructor
    · intro read
      cases read
    · rintro ⟨name, -⟩
      cases name
  · split
    · rename_i name
      simp [name, eq_comm]
    · rename_i noName
      simp [noName]

theorem isArgument_iff {Spells : List Char → Expr → Prop} {s : List Char}
    {argument : String × Expr} :
    IsArgument Spells s argument ↔
      ∃ key value, cutAt? (· == '=') s = some (key, value) ∧ isName (trim key) = true ∧
        argument.1 = String.ofList (trim key) ∧ Spells value argument.2 := by
  constructor
  · rintro ⟨key, value, rfl, first, found⟩
    exact ⟨key, value, cutAt?_append_char first value, found⟩
  · rintro ⟨key, value, cut, found⟩
    obtain ⟨c, isEquals, first, rfl⟩ := eq_of_cutAt?_eq_some cut
    obtain rfl := eq_of_beq isEquals
    refine ⟨key, value, rfl, fun mem => ?_, found⟩
    simpa using first _ mem

theorem readArgument_eq_ok_iff {before after : List (String × Expr)} {s : List Char} :
    readArgument before s = .ok after ↔
      ∃ argument, IsArgument Expr.Valid s argument ∧ argument.1 ∉ before.map Prod.fst ∧
        after = before ++ [argument] := by
  have known : ∀ name, before.any (·.1 == name) = true ↔ name ∈ before.map Prod.fst := by
    intro name
    rw [List.any_eq_true, List.mem_map]
    simp only [beq_iff_eq]
  simp only [isArgument_iff, readArgument]
  cases cutAt? (· == '=') s with
  | none => exact ⟨nofun, nofun⟩
  | some parts =>
      obtain ⟨key, value⟩ := parts
      simp only
      constructor
      · intro read
        split at read
        · rename_i name
          split at read
          · cases read
          · rename_i new
            obtain ⟨e, valid, same⟩ := bind_eq_ok_iff.1 read
            rw [known] at new
            exact ⟨(String.ofList (trim key), e),
              ⟨key, value, rfl, name, rfl, readExpr_eq_ok_iff.1 valid⟩, new,
              (Except.ok.inj same).symm⟩
        · cases read
      · rintro ⟨⟨name, e⟩, ⟨key', value', same, isName, rfl, valid⟩, new, rfl⟩
        obtain ⟨rfl, rfl⟩ := Prod.mk.inj (Option.some.inj same)
        rw [if_pos isName, if_neg (mt (known _).1 new), readExpr_eq_ok_iff.2 valid]
        rfl

theorem readArguments_eq_ok_iff {parts : List (List Char)} {before values : List (String × Expr)}
    (distinct : (before.map Prod.fst).Nodup) :
    parts.foldlM readArgument before = .ok values ↔
      ∃ rest, List.Forall₂ (IsArgument Expr.Valid) parts rest ∧ values = before ++ rest ∧
        (values.map Prod.fst).Nodup := by
  induction parts generalizing before with
  | nil =>
      simp only [List.foldlM_nil, List.forall₂_nil_left_iff, exists_eq_left, List.append_nil]
      constructor
      · intro same
        obtain rfl := Except.ok.inj same
        exact ⟨rfl, distinct⟩
      · rintro ⟨rfl, -⟩
        rfl
  | cons part parts ih =>
      rw [List.foldlM_cons, bind_eq_ok_iff]
      constructor
      · rintro ⟨after, first, others⟩
        obtain ⟨argument, isArgument, new, rfl⟩ := readArgument_eq_ok_iff.1 first
        have distinct' : ((before ++ [argument]).map Prod.fst).Nodup := by
          rw [List.map_append, List.map_singleton, ← List.concat_eq_append, List.nodup_concat]
          exact ⟨new, distinct⟩
        obtain ⟨rest, areArguments, rfl, all⟩ := (ih distinct').1 others
        exact ⟨argument :: rest, .cons isArgument areArguments, by simp, all⟩
      · rintro ⟨rest, areArguments, rfl, all⟩
        cases areArguments with
        | @cons _ argument _ rest isArgument areArguments =>
            have shape : before ++ argument :: rest = (before ++ [argument]) ++ rest := by simp
            rw [shape] at all
            have distinct' : ((before ++ [argument]).map Prod.fst).Nodup := by
              rw [List.map_append] at all
              exact (List.nodup_append.1 all).1
            have new : argument.1 ∉ before.map Prod.fst := by
              rw [List.map_append, List.map_singleton, ← List.concat_eq_append,
                List.nodup_concat] at distinct'
              exact distinct'.1
            exact ⟨before ++ [argument], readArgument_eq_ok_iff.2 ⟨argument, isArgument, new, rfl⟩,
              (ih distinct').2 ⟨rest, areArguments, shape, shape ▸ all⟩⟩

theorem readArguments_nil_eq_ok_iff {parts : List (List Char)} {values : List (String × Expr)} :
    parts.foldlM readArgument [] = .ok values ↔
      List.Forall₂ (IsArgument Expr.Valid) parts values ∧ (values.map Prod.fst).Nodup := by
  have distinct : (([] : List (String × Expr)).map Prod.fst).Nodup := List.nodup_nil
  rw [readArguments_eq_ok_iff distinct]
  constructor
  · rintro ⟨_, areArguments, rfl, distinct⟩
    exact ⟨areArguments, distinct⟩
  · exact fun ⟨areArguments, distinct⟩ => ⟨_, areArguments, rfl, distinct⟩

/-! ## Rows of arguments -/

/-- A name stands in one part, with the blanks around it. -/
theorem passes_trim {s : List Char} (name : isName (trim s) = true) : Expr.Passes ',' 0 s :=
  Expr.Divides.comma.passes_padded (.of_trim s) (Expr.Divides.comma.passes_name name)

theorem passes_argument {key value : List Char} {n : Nat} (name : isName (trim key) = true)
    (passes : Expr.Passes ',' n value) : Expr.Passes ',' n (key ++ '=' :: value) := by
  have equals : Expr.Passes ',' 0 ['='] := .single (by decide) (by decide)
  have whole := (passes_trim name).append (equals.append passes)
  rwa [Nat.zero_add, Nat.zero_add] at whole

/-- An argument leaves no bracket open for the division if its expression leaves none open. -/
theorem passes_argument_iff {part : List Char} {argument : String × Expr}
    (isArgument : IsArgument Expr.Valid part argument) :
    (∃ n, Expr.Passes ',' n part) ∧ (Expr.Passes ',' 0 part ↔
      ∃ argument, IsArgument (Expr.Composed (Step.Admitted 0)) part argument) := by
  obtain ⟨key, value, rfl, first, name, same, valid⟩ := isArgument
  obtain ⟨n, passes, closed⟩ := valid.exists_passes Expr.Divides.comma (by decide)
  have whole := passes_argument name passes
  refine ⟨⟨n, whole⟩, ?_⟩
  constructor
  · intro passesAll
    have none : n = 0 := whole.eq_zero_of_passes Expr.Divides.comma.plain passesAll
    exact ⟨argument, key, value, rfl, first, name, same, closed none⟩
  · rintro ⟨_, key, value, same, -, name, -, composed⟩
    rw [same]
    exact passes_argument name (composed.passes Expr.Divides.comma (by decide))

/-- The division at commas finds a row of arguments exactly if the row is closed. -/
theorem splitOutside_row_iff {callee : List Char} {row : List (List Char)}
    {values : List (String × Expr)} (name : isName (trim callee) = true)
    (valid : List.Forall₂ (IsArgument Expr.Valid) row values) :
    Expr.splitOutside ',' 0 none (callee ++ row.flatMap (',' :: ·)) = callee :: row ↔
      ClosedRow row := by
  have front : Expr.Passes ',' 0 callee := passes_trim name
  have each := Expr.forall_of_forall₂ valid fun _ _ => passes_argument_iff
  rw [Expr.splitOutside_joined_iff Expr.Divides.comma.plain
    (List.forall_mem_cons.2 ⟨⟨0, front⟩, fun part mem => (each part mem).1⟩)]
  cases row with
  | nil => exact ⟨fun _ => nofun, fun _ => nofun⟩
  | cons part row =>
      rw [List.dropLast_cons_cons, List.forall_mem_cons]
      have inRow : ∀ p ∈ (part :: row).dropLast, p ∈ part :: row := List.dropLast_subset _
      constructor
      · rintro ⟨-, passes⟩ p mem
        exact (each p (inRow p mem)).2.1 (passes p mem)
      · intro closed
        exact ⟨front, fun p mem => (each p (inRow p mem)).2.2 (closed p mem)⟩

theorem readCall_eq_ok_iff {arguments : List Char} {d : Directive} :
    readCall arguments = .ok d ↔
      ∃ callee row values, arguments = callee ++ row.flatMap (',' :: ·) ∧
        isName (trim callee) = true ∧ List.Forall₂ (IsArgument Expr.Valid) row values ∧
        (values.map Prod.fst).Nodup ∧ ClosedRow row ∧
        d = .call (String.ofList (trim callee)) values := by
  obtain ⟨first, row, divided, whole⟩ := Expr.exists_parts ',' 0 none arguments
  rw [readCall, divided]
  simp only
  constructor
  · intro read
    split at read
    · cases read
    · split at read
      · rename_i name
        obtain ⟨values, arguments, same⟩ := bind_eq_ok_iff.1 read
        obtain ⟨areArguments, distinct⟩ := readArguments_nil_eq_ok_iff.1 arguments
        rw [whole] at divided
        exact ⟨first, row, values, whole, name, areArguments, distinct,
          (splitOutside_row_iff name areArguments).1 divided, (Except.ok.inj same).symm⟩
      · cases read
  · rintro ⟨callee, row', values, rfl, name, areArguments, distinct, closed, rfl⟩
    rw [(splitOutside_row_iff name areArguments).2 closed] at divided
    obtain ⟨rfl, rfl⟩ := List.cons.inj divided
    have nonempty : (trim callee).isEmpty = false := by
      rw [Bool.eq_false_iff, ne_eq, List.isEmpty_iff]
      exact ne_nil_of_isName name
    rw [nonempty, if_pos name, readArguments_nil_eq_ok_iff.2 ⟨areArguments, distinct⟩]
    rfl

/-! ## Actions and sections -/

theorem readAction_of_words {action arguments : List Char} {keyword : String}
    (words : Words action keyword.toList arguments) :
    readAction action = readAs keyword arguments := by
  rw [readAction, words_iff.1 words]
  simp only [String.ofList_toList]

/-- The keyword of an action as a text. -/
theorem exists_keyword (action : List Char) :
    ∃ (keyword : String) (arguments : List Char), Words action keyword.toList arguments := by
  obtain ⟨first, rest, words⟩ := exists_words action
  exact ⟨String.ofList first, rest, by rwa [String.toList_ofList]⟩

theorem readAction_eq_ok_iff {action : List Char} {d : Directive} :
    readAction action = .ok d ↔ Spelled ClosedRow action d := by
  constructor
  · obtain ⟨keyword, arguments, words⟩ := exists_keyword action
    rw [readAction_of_words words]
    intro read
    unfold readAs at read
    split at read
    · obtain ⟨e, valid, rfl⟩ := readIf_eq_ok_iff.1 read
      exact .openIf words valid
    · obtain ⟨rfl, rfl⟩ := readBare_eq_ok_iff.1 read
      exact .orElse words
    · obtain ⟨rfl, rfl⟩ := readBare_eq_ok_iff.1 read
      exact .closeIf words
    · obtain ⟨item, collection, e, parts, name, valid, rfl⟩ := readFor_eq_ok_iff.1 read
      exact .openFor words parts name valid
    · obtain ⟨rfl, rfl⟩ := readBare_eq_ok_iff.1 read
      exact .closeFor words
    · obtain ⟨valid, rfl⟩ := readBlock_eq_ok_iff.1 read
      exact .openBlock words valid
    · obtain rfl := Except.ok.inj read
      exact .closeBlock words
    · obtain ⟨callee, row, values, rfl, name, valid, distinct, closed, rfl⟩ :=
        readCall_eq_ok_iff.1 read
      exact .call words name valid distinct closed
    · cases read
    · cases read
  · intro spelled
    cases spelled with
    | openIf words valid =>
        rw [readAction_of_words words]
        exact readIf_eq_ok_iff.2 ⟨_, valid, rfl⟩
    | orElse words | closeIf words | closeFor words =>
        rw [readAction_of_words words]
        rfl
    | openFor words parts name valid =>
        rw [readAction_of_words words]
        exact readFor_eq_ok_iff.2 ⟨_, _, _, parts, name, valid, rfl⟩
    | openBlock words valid =>
        rw [readAction_of_words words]
        exact readBlock_eq_ok_iff.2 ⟨valid, rfl⟩
    | closeBlock words =>
        rw [readAction_of_words words]
        rfl
    | call words name valid distinct closed =>
        rw [readAction_of_words words]
        exact readCall_eq_ok_iff.2 ⟨_, _, _, rfl, name, valid, distinct, closed, rfl⟩

theorem ofSection_eq_ok_iff {s : Section} {asked : Option Directive} :
    ofSection s = .ok asked ↔ Asks ClosedRow s asked := by
  constructor
  · intro read
    cases s with
    | text | comment | brace | nothing =>
        obtain rfl := Except.ok.inj read
        constructor
    | output s =>
        cases valid : readExpr s with
        | error => simp [ofSection, valid, Except.map] at read
        | ok e =>
            simp only [ofSection, valid, Except.map, Except.ok.injEq] at read
            subst read
            exact .output (readExpr_eq_ok_iff.1 valid)
    | action s =>
        cases spelled : readAction s with
        | error => simp [ofSection, spelled, Except.map] at read
        | ok d =>
            simp only [ofSection, spelled, Except.map, Except.ok.injEq] at read
            subst read
            exact .action (readAction_eq_ok_iff.1 spelled)
    | unclosed column => cases read
  · intro asks
    cases asks with
    | text | comment | brace | nothing => rfl
    | output valid => rw [ofSection, readExpr_eq_ok_iff.2 valid]; rfl
    | action spelled => rw [ofSection, readAction_eq_ok_iff.2 spelled]; rfl

/-! ## Faults -/

open CompileError

/-- Whatever refuses a reading, the directive is malformed. -/
def RefusesMalformed {α : Type} (read : Except Cause α) : Prop :=
  ∀ cause, read = .error cause → cause.kind = .malformedDirectiveSyntax

namespace RefusesMalformed

variable {α β : Type} {read : Except Cause α} {next : α → Except Cause β}

theorem ok (a : α) : RefusesMalformed (.ok a) :=
  nofun

theorem error {cause : Cause} (kind : cause.kind = .malformedDirectiveSyntax) :
    RefusesMalformed (.error cause : Except Cause α) := by
  intro other same
  rwa [← Except.error.inj same]

theorem bind (first : RefusesMalformed read) (then_ : ∀ a, RefusesMalformed (next a)) :
    RefusesMalformed (read >>= next) := by
  cases read with
  | error cause => exact error (first cause rfl)
  | ok a => exact then_ a

end RefusesMalformed

open RefusesMalformed (ok error bind)

theorem refuses_readExpr (s : List Char) : RefusesMalformed (readExpr s) := by
  rw [readExpr]
  cases Expr.ofChars s with
  | ok e => exact ok e
  | error e => exact error rfl

theorem refuses_readBare (keyword : String) (arguments : List Char) (d : Directive) :
    RefusesMalformed (readBare keyword arguments d) := by
  rw [readBare]
  split
  · exact ok d
  · exact error rfl

theorem refuses_readIf (arguments : List Char) : RefusesMalformed (readIf arguments) := by
  rw [readIf]
  split
  · exact error rfl
  · exact bind (refuses_readExpr _) fun _ => ok _

theorem refuses_readFor (arguments : List Char) : RefusesMalformed (readFor arguments) := by
  rw [readFor]
  split
  · exact error rfl
  · split
    · split
      · exact error rfl
      · exact bind (refuses_readExpr _) fun _ => ok _
    · exact error rfl

theorem refuses_readBlock (arguments : List Char) : RefusesMalformed (readBlock arguments) := by
  rw [readBlock]
  split
  · exact error rfl
  · split
    · exact ok _
    · exact error rfl

theorem refuses_readArgument (before : List (String × Expr)) (s : List Char) :
    RefusesMalformed (readArgument before s) := by
  rw [readArgument]
  split
  · exact error rfl
  · simp only
    split
    · split
      · exact error rfl
      · exact bind (refuses_readExpr _) fun _ => ok _
    · exact error rfl

theorem refuses_readArguments (parts : List (List Char)) (before : List (String × Expr)) :
    RefusesMalformed (parts.foldlM readArgument before) := by
  induction parts generalizing before with
  | nil => exact ok before
  | cons part parts ih =>
      rw [List.foldlM_cons]
      exact bind (refuses_readArgument before part) ih

theorem refuses_readCall (arguments : List Char) : RefusesMalformed (readCall arguments) := by
  rw [readCall]
  split
  · exact error rfl
  · simp only
    split
    · exact error rfl
    · split
      · exact bind (refuses_readArguments _ _) fun _ => ok _
      · exact error rfl

/-- An action that is not read has an unknown keyword or is malformed. -/
theorem kind_of_readAction {action arguments : List Char} {keyword : String} {cause : Cause}
    (words : Words action keyword.toList arguments) (refused : readAction action = .error cause) :
    cause.kind =
      if keyword ∈ keywords then .malformedDirectiveSyntax else .unknownDirectiveKeyword := by
  rw [readAction_of_words words] at refused
  by_cases known : keyword ∈ keywords
  · rw [if_pos known]
    refine (?_ : RefusesMalformed (readAs keyword arguments)) cause refused
    simp only [keywords, List.mem_cons, List.not_mem_nil, or_false] at known
    rcases known with rfl | rfl | rfl | rfl | rfl | rfl | rfl | rfl
    · exact refuses_readIf arguments
    · exact refuses_readBare _ arguments _
    · exact refuses_readBare _ arguments _
    · exact refuses_readFor arguments
    · exact refuses_readBare _ arguments _
    · exact refuses_readBlock arguments
    · exact ok _
    · exact refuses_readCall arguments
  · rw [if_neg known]
    unfold readAs at refused
    split at refused
    case h_9 | h_10 =>
      obtain rfl := Except.error.inj refused
      rfl
    all_goals exact absurd (by decide) known

end Directive

end BraceTemplate
