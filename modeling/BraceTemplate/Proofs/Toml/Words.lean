/-
# BraceTemplate.Proofs.Toml.Words — how far single words reach

Blanks, strings, keys and scalars are read alike if less of the text is left behind them. A string is
shorter than what it is read from (`Strung`), since its quotes do not count and no escape denotes
more than one character.

* `skipSpaces_extent`, `skipLines?_extent`: what is passed over;
* `string?_extent`, `key?_extent`, `scalar?_extent`: the words.
-/
import BraceTemplate.Proofs.Toml.Extent
import BraceTemplate.Toml.Parser

namespace BraceTemplate.Toml

set_option autoImplicit false

/-! ## Blanks and line ends -/

theorem skipSpaces_extent (s : List Char) :
    Extent (fun x y => skipSpaces x = y) s (skipSpaces s) :=
  (run_extent isSpace s).mono fun _ _ _ _ run => run.2

theorem newline?_eq_some {s rest : List Char} (read : newline? s = some rest) :
    ∃ front, s = front ++ rest ∧ front ≠ [] ∧ ∀ other, newline? (front ++ other) = some other := by
  unfold newline? at read
  split at read
  · obtain rfl := Option.some.inj read
    exact ⟨['\n'], rfl, by simp, fun _ => rfl⟩
  · obtain rfl := Option.some.inj read
    exact ⟨['\r', '\n'], rfl, by simp, fun _ => rfl⟩
  · cases read

theorem newline?_extent {s rest : List Char} (read : newline? s = some rest) :
    Extent (fun x y => newline? x = some y) s rest := by
  obtain ⟨front, rfl, -, always⟩ := newline?_eq_some read
  exact ⟨front, rfl, fun cut _ => always cut⟩

/-- Where no line ends, none does if less of the text is left. -/
theorem newline?_eq_none {s other : List Char} (noEnd : newline? s = none) (left : other <+: s) :
    newline? other = none := by
  cases read : newline? other with
  | none => rfl
  | some rest =>
      obtain ⟨front, rfl, -, always⟩ := newline?_eq_some read
      obtain ⟨more, rfl⟩ := left
      rw [List.append_assoc, always] at noEnd
      cases noEnd

theorem skipLines?_cons {c : Char} (other : c ≠ '\r') (inComment : Bool) (s : List Char) :
    skipLines? inComment (c :: s) =
      if c == '\n' then skipLines? false s
      else if inComment then (if inLine c then skipLines? true s else none)
      else if isSpace c then skipLines? false s
      else if c == '#' then skipLines? true s
      else some (c :: s) := by
  rw [skipLines?]
  · simp [other]
  · intro rest same
    exact absurd same other

theorem skipLines?_extent {inComment : Bool} {s rest : List Char}
    (read : skipLines? inComment s = some rest) :
    Extent (fun x y => skipLines? inComment x = some y) s rest := by
  -- one more character in front, behind which a comment may begin or end
  have step : ∀ {a b : Bool} {s : List Char} (c : Char),
      (∀ other, skipLines? a (c :: other) = skipLines? b other) →
      Extent (fun x y => skipLines? b x = some y) s rest →
      Extent (fun x y => skipLines? a x = some y) (c :: s) rest := by
    intro a b s c same inner
    apply ((Extent.char c s).andThen inner).mono
    rintro x y - - ⟨z, rfl, found, -⟩
    rw [same, found]
  fun_induction skipLines? inComment s with
  | case1 | case5 | case7 => cases read
  | case2 inComment noComment =>
      obtain rfl := Option.some.inj read
      refine ⟨[], rfl, ?_⟩
      intro cut left
      rw [List.prefix_nil.1 left]
      simp [skipLines?, noComment]
  | case3 inComment s ih =>
      apply ((Extent.char '\r' _).andThen ((Extent.char '\n' s).andThen (ih read))).mono
      rintro x y - - ⟨_, rfl, ⟨z, rfl, found, -⟩, -⟩
      simp only [skipLines?, found]
  | case4 inComment c s _ isEnd ih =>
      obtain rfl : c = '\n' := by simpa using isEnd
      exact step _ (fun other => by simp [skipLines?_cons]) (ih read)
  | case6 c s _ noEnd other inLine ih =>
      have other : c ≠ '\r' := by simpa using other
      exact step c (fun more => by simp [skipLines?_cons other, noEnd, inLine]) (ih read)
  | case8 inComment c s _ noEnd other noComment isSpace ih =>
      have other : c ≠ '\r' := by simpa using other
      exact step c (fun more => by simp [skipLines?_cons other, noEnd, noComment, isSpace])
        (ih read)
  | case9 inComment c s _ noEnd other noComment noSpace isComment ih =>
      have other : c ≠ '\r' := by simpa using other
      exact step c
        (fun more => by simp [skipLines?_cons other, noEnd, noComment, noSpace, isComment]) (ih read)
  | case10 inComment c s _ noEnd other noComment noSpace noMark =>
      have other : c ≠ '\r' := by simpa using other
      obtain rfl := Option.some.inj read
      refine ⟨[], rfl, ?_⟩
      intro cut left
      cases cut with
      | nil => simp [skipLines?, noComment]
      | cons d cut =>
          obtain rfl : d = c := (List.cons_prefix_cons.1 left).1
          simp [skipLines?_cons other, noEnd, noComment, noSpace, noMark]

theorem skipBlankLines_cons {c : Char} {s : List Char}
    (noEnd : ∀ rest, c = '\r' → s = '\n' :: rest → False) :
    skipBlankLines (c :: s) = if isSpace c || c == '\n' then skipBlankLines s else c :: s := by
  rw [skipBlankLines]
  exact noEnd

theorem skipBlankLines_extent (s : List Char) :
    Extent (fun x y => skipBlankLines x = y) s (skipBlankLines s) := by
  fun_induction skipBlankLines s with
  | case1 => exact ⟨[], rfl, fun cut left => by rw [List.prefix_nil.1 left]; rfl⟩
  | case2 s ih =>
      apply ((Extent.char '\r' _).andThen ((Extent.char '\n' s).andThen ih)).mono
      rintro x y - - ⟨_, rfl, ⟨z, rfl, found, -⟩, -⟩
      simp only [skipBlankLines, found]
  | case3 c s noEnd blank ih =>
      apply ((Extent.char c s).andThen ih).mono
      rintro x y - - ⟨z, rfl, found, -⟩
      rw [skipBlankLines_cons, if_pos blank, found]
      rintro rest rfl -
      cases blank
  | case4 c s noEnd solid =>
      refine ⟨[], rfl, ?_⟩
      intro cut left
      cases cut with
      | nil => rfl
      | cons d cut =>
          obtain ⟨rfl, more, behind⟩ := List.cons_prefix_cons.1 left
          rw [List.nil_append, skipBlankLines_cons, if_neg solid]
          rintro rest same rfl
          exact noEnd _ same behind.symm

theorem lineJoin?_extent {s rest : List Char} (read : lineJoin? s = some rest) :
    Extent (fun x y => lineJoin? x = some y) s rest := by
  obtain ⟨after, ended, rfl⟩ := Option.map_eq_some_iff.1 read
  apply ((skipSpaces_extent s).andThen
    ((newline?_extent ended).andThen (skipBlankLines_extent after))).mono
  rintro x y - - ⟨_, rfl, ⟨z, ends, rfl, -⟩, -⟩
  simp only [lineJoin?, ends, Option.map_some]

/-! ## Strings -/

/-- An escape is read whatever stands behind it, and does not join lines. -/
theorem escape?_eq_some {s rest : List Char} {c : Char} (read : escape? s = some (c, rest)) :
    ∃ front, s = front ++ rest ∧
      ∀ other, escape? (front ++ other) = some (c, other) ∧ lineJoin? (front ++ other) = none := by
  unfold escape? at read
  split at read
  case h_8 a b c d _ =>
    obtain ⟨c', code, same⟩ := Option.map_eq_some_iff.1 read
    obtain ⟨rfl, rfl⟩ := Prod.mk.inj same
    refine ⟨['u', a, b, c, d], rfl, fun other => ⟨?_, rfl⟩⟩
    simp [escape?, code]
  case h_9 a b c d e f g h _ =>
    obtain ⟨c', code, same⟩ := Option.map_eq_some_iff.1 read
    obtain ⟨rfl, rfl⟩ := Prod.mk.inj same
    refine ⟨['U', a, b, c, d, e, f, g, h], rfl, fun other => ⟨?_, rfl⟩⟩
    simp [escape?, code]
  case h_10 => cases read
  all_goals
    obtain ⟨rfl, rfl⟩ := Prod.mk.inj (Option.some.inj read)
    exact ⟨[_], rfl, fun other => ⟨rfl, rfl⟩⟩

/-- A reader takes a string that is shorter than what is taken. -/
def Strung (read : Nat → List Char → Option (List Char × List Char)) (text s rest : List Char) :
    Prop :=
  Extent (Taken read text) s rest ∧ text.length + rest.length < s.length

/-- A string goes on behind a piece of text that stands for no more characters than it has. -/
theorem Strung.behind {read : Nat → List Char → Option (List Char × List Char)}
    {text s rest : List Char} (inner : Strung read text s rest) (piece added : List Char)
    (nonempty : piece ≠ []) (short : added.length ≤ piece.length)
    (step : ∀ fuel other after, other <+: s → read fuel other = some (text, after) →
      read (fuel + 1) (piece ++ other) = some (added ++ text, after)) :
    Strung read (added ++ text) (piece ++ s) rest := by
  obtain ⟨extent, shorter⟩ := inner
  refine ⟨extent.behind piece nonempty step, ?_⟩
  simp only [List.length_append]
  omega

/-- A string on one line is read up to its closing quote. -/
theorem shortString?_strung {quote : Char} {fuel : Nat} {s text rest : List Char}
    (read : shortString? quote fuel s = some (text, rest)) :
    Strung (shortString? quote) text s rest := by
  induction fuel generalizing s text with
  | zero => cases read
  | succ fuel ih =>
      cases s with
      | nil => cases read
      | cons c s =>
          simp only [shortString?] at read
          split at read
          · next close =>
            obtain ⟨rfl, rfl⟩ := Prod.mk.inj (Option.some.inj read)
            refine ⟨?_, by simp⟩
            apply Extent.last [c] (by simp)
            intro fuel cut _
            simp [shortString?, close]
          · next noClose =>
            split at read
            · next escaped =>
              split at read
              · next d after code =>
                obtain ⟨escape, rfl, always⟩ := escape?_eq_some code
                obtain ⟨text, inner, rfl⟩ := map_fst_eq_some.1 read
                apply (ih inner).behind (c :: escape) [d] (by simp) (by simp)
                intro fuel other after _ found
                simp [shortString?, noClose, escaped, always, found]
              · cases read
            · next noEscape =>
              split at read
              · next inside =>
                obtain ⟨text, inner, rfl⟩ := map_fst_eq_some.1 read
                apply (ih inner).behind [c] [c] (by simp) (by simp)
                intro fuel other after _ found
                simp [shortString?, noClose, noEscape, inside, found]
              · cases read

/-- The closing quotes of a string of several lines, with up to two quotes of its own in front. -/
theorem longString?_closing {quote : Char} {s : List Char}
    (many : ¬ (s.takeWhile (· == quote)).length < 2)
    (close : (s.takeWhile (· == quote)).length < 5) :
    Strung (longString? quote)
      (List.replicate ((s.takeWhile (· == quote)).length - 2) quote) (quote :: s)
      (s.dropWhile (· == quote)) := by
  have quotes : s.takeWhile (· == quote) ++ s.dropWhile (· == quote) = s :=
    List.takeWhile_append_dropWhile
  constructor
  · have extent : Extent
        (Taken (longString? quote)
          (List.replicate ((s.takeWhile (· == quote)).length - 2) quote))
        ((quote :: s.takeWhile (· == quote)) ++ s.dropWhile (· == quote))
        (s.dropWhile (· == quote)) := by
      apply Extent.last _ (by simp)
      intro fuel cut left
      simp [longString?, takeWhile_run left, dropWhile_run left, many, close]
    rwa [List.cons_append, quotes] at extent
  · have both := congrArg List.length quotes
    simp only [List.length_append] at both
    simp only [List.length_replicate, List.length_cons]
    omega

/-- A string of several lines is read up to its closing quotes. -/
theorem longString?_strung {quote : Char} {fuel : Nat} {s text rest : List Char}
    (read : longString? quote fuel s = some (text, rest)) :
    Strung (longString? quote) text s rest := by
  induction fuel generalizing s text with
  | zero => cases read
  | succ fuel ih =>
      cases s with
      | nil => cases read
      | cons c s =>
          simp only [longString?] at read
          split at read
          · next isQuote =>
            obtain rfl : c = quote := by simpa using isQuote
            split at read
            · next few =>
              obtain ⟨text, inner, rfl⟩ := map_fst_eq_some.1 read
              apply (ih inner).behind [c] [c] (by simp) (by simp)
              intro fuel other after left found
              have few' := Nat.lt_of_le_of_lt (prefix_takeWhile left).length_le few
              simp [longString?, few', found]
            · next many =>
              split at read
              · next close =>
                obtain ⟨rfl, rfl⟩ := Prod.mk.inj (Option.some.inj read)
                exact longString?_closing many close
              · cases read
          · next noQuote =>
            split at read
            · next escaped =>
              split at read
              · next after joined =>
                obtain ⟨join, rfl, joins⟩ := lineJoin?_extent joined
                apply (ih read).behind (c :: join) [] (by simp) (by simp)
                intro fuel other after left found
                simp [longString?, noQuote, escaped, joins other left, found]
              · split at read
                · next d after code =>
                  obtain ⟨escape, rfl, always⟩ := escape?_eq_some code
                  obtain ⟨text, inner, rfl⟩ := map_fst_eq_some.1 read
                  apply (ih inner).behind (c :: escape) [d] (by simp) (by simp)
                  intro fuel other after _ found
                  simp [longString?, noQuote, escaped, always, found]
                · cases read
            · next noEscape =>
              split at read
              · next after ended =>
                obtain ⟨lineEnd, same, nonempty, always⟩ := newline?_eq_some ended
                obtain ⟨text, inner, rfl⟩ := map_fst_eq_some.1 read
                rw [same]
                obtain ⟨d, lineEnd, rfl⟩ := List.exists_cons_of_ne_nil nonempty
                obtain ⟨rfl, -⟩ := List.cons.inj same
                apply (ih inner).behind (c :: lineEnd) ['\n'] (by simp) (by simp)
                intro fuel other after _ found
                have ends := always other
                rw [List.cons_append] at ends
                simp [longString?, noQuote, noEscape, ends, found]
              · next noEnd =>
                split at read
                · next inside =>
                  obtain ⟨text, inner, rfl⟩ := map_fst_eq_some.1 read
                  apply (ih inner).behind [c] [c] (by simp) (by simp)
                  intro fuel other after left found
                  have noEnd' : newline? (c :: other) = none :=
                    newline?_eq_none noEnd (List.cons_prefix_cons.2 ⟨rfl, left⟩)
                  simp [longString?, noQuote, noEscape, noEnd', inside, found]
                · cases read

theorem string?_long (quote : Char) (s : List Char) :
    string? (quote :: quote :: quote :: s) =
      (longString? quote (s.length + 3) ((newline? s).getD s)).map
        fun (text, rest) => (String.ofList text, rest) := by
  simp [string?]

theorem string?_short {quote : Char} {s : List Char} (single : ∀ t, s ≠ quote :: quote :: t) :
    string? (quote :: s) =
      (shortString? quote (s.length + 1) s).map fun (text, rest) => (String.ofList text, rest) := by
  simp only [string?]
  split
  · split
    · next a b t quotes =>
      simp only [Bool.and_eq_true, beq_iff_eq] at quotes
      obtain ⟨rfl, rfl⟩ := quotes
      exact absurd rfl (single t)
    · rfl
  · rfl

/-- The line end behind three quotes does not count. -/
theorem body_extent (s : List Char) :
    Extent (fun x y => (newline? x).getD x = y) s ((newline? s).getD s) := by
  cases ended : newline? s with
  | none =>
      refine ⟨[], rfl, ?_⟩
      intro cut left
      rw [List.nil_append, newline?_eq_none ended left, Option.getD_none]
  | some body =>
      apply (newline?_extent ended).mono
      intro x y _ _ ends
      rw [ends, Option.getD_some]

/-- A string is read up to its closing quotes, and is shorter than what is taken. -/
theorem string?_extent {s rest : List Char} {text : String}
    (read : string? s = some (text, rest)) :
    Extent (fun x y => string? x = some (text, y)) s rest ∧
      text.length + rest.length < s.length := by
  cases s with
  | nil => cases read
  | cons quote s =>
      by_cases long : ∃ t, s = quote :: quote :: t
      · obtain ⟨t, rfl⟩ := long
        rw [string?_long] at read
        obtain ⟨chars, inner, rfl⟩ := map_fst_eq_some.1 read
        obtain ⟨extent, short⟩ := longString?_strung inner
        have body := body_extent t
        constructor
        · apply ((Extent.char quote _).andThen ((Extent.char quote _).andThen
            ((Extent.char quote t).andThen (body.andThen extent)))).mono
          rintro x y - - ⟨_, rfl, ⟨_, rfl, ⟨z, rfl, ⟨b, rfl, taken, shorter, -⟩, -⟩, -⟩, -⟩
          rw [string?_long, taken _ (by omega)]
          rfl
        · obtain ⟨lead, same, -⟩ := body
          have lengths := congrArg List.length same
          simp only [List.length_append] at lengths
          simp only [String.length_ofList, List.length_cons]
          omega
      · have single : ∀ t, s ≠ quote :: quote :: t := fun t same => long ⟨t, same⟩
        rw [string?_short single] at read
        obtain ⟨chars, inner, rfl⟩ := map_fst_eq_some.1 read
        obtain ⟨extent, short⟩ := shortString?_strung inner
        constructor
        · apply ((Extent.char quote s).andThen extent).mono
          rintro x y left - ⟨z, rfl, taken, -⟩
          rw [string?_short, taken _ (by omega)]
          · rfl
          · rintro t rfl
            obtain ⟨more, rfl⟩ := (List.cons_prefix_cons.1 left).2
            exact single _ rfl
        · simp only [String.length_ofList, List.length_cons]
          omega

/-! ## Keys -/

theorem keyPart?_extent {s rest : List Char} {part : String}
    (read : keyPart? s = some (part, rest)) :
    Extent (fun x y => keyPart? x = some (part, y)) s rest := by
  cases s with
  | nil => cases read
  | cons c s =>
      simp only [keyPart?] at read
      split at read
      · next quote =>
        obtain ⟨chars, inner, rfl⟩ := map_fst_eq_some.1 read
        apply ((Extent.char c s).andThen (shortString?_strung inner).1).mono
        rintro x y - - ⟨z, rfl, taken, -⟩
        rw [keyPart?, if_pos quote, taken _ (by omega)]
        rfl
      · next noQuote =>
        split at read
        · next bare =>
          obtain ⟨rfl, rfl⟩ := Prod.mk.inj (Option.some.inj read)
          refine ⟨c :: s.takeWhile inBareKey, by simp, ?_⟩
          intro cut left
          simp [keyPart?, noQuote, bare, takeWhile_run left, dropWhile_run left]
        · cases read

theorem keyParts?_extent {depth : Nat} {s rest : List Char} {parts : List String}
    (read : keyParts? depth s = some (parts, rest)) :
    Extent (fun x y => keyParts? depth x = some (parts, y)) s rest := by
  induction depth generalizing s parts with
  | zero => cases read
  | succ depth ih =>
      simp only [keyParts?] at read
      split at read
      · cases read
      · next part after first =>
        have begins := (skipSpaces_extent s).andThen
          ((keyPart?_extent first).andThen (skipSpaces_extent after))
        split at read
        · next more dotted =>
          obtain ⟨parts, inner, rfl⟩ := map_fst_eq_some.1 read
          rw [dotted] at begins
          apply (begins.andThen ((Extent.char '.' more).andThen (ih inner))).mono
          rintro x y - - ⟨_, ⟨_, rfl, ⟨_, first, dotted, -⟩, -⟩, ⟨_, rfl, others, -⟩, -⟩
          simp only [keyParts?, first, dotted, others, Option.map_some]
        · next noDot =>
          obtain ⟨rfl, rfl⟩ := Prod.mk.inj (Option.some.inj read)
          apply begins.mono
          rintro x y - left ⟨_, rfl, ⟨_, first, rfl, -⟩, -⟩
          simp only [keyParts?, first]
          split
          · next more dotted =>
            obtain ⟨others, same⟩ := left
            rw [dotted] at same
            exact absurd same.symm (noDot _)
          · rfl

theorem key?_extent {s rest : List Char} {parts : List String}
    (read : key? s = some (parts, rest)) :
    Extent (fun x y => key? x = some (parts, y)) s rest := by
  obtain ⟨read, few⟩ := Option.filter_eq_some_iff.1 read
  apply (keyParts?_extent read).mono
  intro x y _ _ found
  simp only [key?, found, Option.filter_some, few, if_true]

/-! ## Numbers, truth values, dates and times -/

/-- A date with a time behind it begins a text. -/
def Timed (s : List Char) : Prop :=
  ∃ day digit rest, date? (s.takeWhile inScalar) = some (day, []) ∧
    s.dropWhile inScalar = ' ' :: digit :: rest ∧ digit.isDigit = true

theorem scalar?_of_timed {s day rest : List Char} {digit : Char}
    (date : date? (s.takeWhile inScalar) = some (day, []))
    (after : s.dropWhile inScalar = ' ' :: digit :: rest) (isDigit : digit.isDigit = true) :
    scalar? s =
      (dateTime? (s.takeWhile inScalar ++ ' ' :: (digit :: rest).takeWhile inScalar)).map
        (·, (digit :: rest).dropWhile inScalar) := by
  simp only [scalar?, date, after, isDigit, if_true]

theorem scalar?_of_not_timed {s : List Char} (plain : ¬ Timed s) :
    scalar? s =
      ((dateTime? (s.takeWhile inScalar)).or (number? (s.takeWhile inScalar))).map
        (·, s.dropWhile inScalar) := by
  simp only [scalar?]
  split
  · next day digit rest date after =>
    have noDigit : ¬ digit.isDigit = true := fun isDigit => plain ⟨day, digit, rest, date, after, isDigit⟩
    rw [if_neg noDigit, after]
    simp [dateTime?, date]
  · rfl

theorem Timed.of_prefix {s x : List Char} (timed : Timed x)
    (run : x.takeWhile inScalar = s.takeWhile inScalar)
    (left : x.dropWhile inScalar <+: s.dropWhile inScalar) : Timed s := by
  obtain ⟨day, digit, rest, date, after, isDigit⟩ := timed
  rw [run] at date
  rw [after] at left
  obtain ⟨more, same⟩ := left
  exact ⟨day, digit, rest ++ more, date, same.symm, isDigit⟩

theorem inScalar_of_isDigit {c : Char} (isDigit : c.isDigit = true) : inScalar c = true := by
  simp [inScalar, Char.isAlphanum, isDigit]

theorem scalar?_extent {s rest : List Char} {v : Toml} (read : scalar? s = some (v, rest)) :
    Extent (fun x y => scalar? x = some (v, y)) s rest := by
  by_cases timed : Timed s
  · obtain ⟨day, digit, more, date, after, isDigit⟩ := timed
    rw [scalar?_of_timed date after isDigit, Option.map_eq_some_iff] at read
    obtain ⟨v, made, same⟩ := read
    obtain ⟨rfl, rfl⟩ := Prod.mk.inj same
    have run := run_extent inScalar s
    rw [after] at run
    apply (run.andThen ((Extent.char ' ' _).andThen (run_extent inScalar (digit :: more)))).mono
    rintro x y - - ⟨_, ⟨days, after'⟩, ⟨z, rfl, ⟨times, rfl⟩, -⟩, -⟩
    -- the run behind the space still begins with the digit
    cases z with
    | nil => simp [inScalar_of_isDigit isDigit] at times
    | cons c z =>
        have inRun := inScalar_of_isDigit isDigit
        by_cases inRun' : inScalar c = true
        · simp only [List.takeWhile_cons_of_pos inRun, List.takeWhile_cons_of_pos inRun',
            List.cons.injEq] at times
          obtain ⟨rfl, times⟩ := times
          rw [← days] at date made
          rw [scalar?_of_timed date after' isDigit]
          simp only [List.takeWhile_cons_of_pos inRun] at made ⊢
          rw [times, made]
          rfl
        · simp [inRun, inRun'] at times
  · rw [scalar?_of_not_timed timed, Option.map_eq_some_iff] at read
    obtain ⟨v, made, same⟩ := read
    obtain ⟨rfl, rfl⟩ := Prod.mk.inj same
    apply (run_extent inScalar s).mono
    rintro x y - left ⟨run, rfl⟩
    have plain : ¬ Timed x := fun timed' => timed (timed'.of_prefix run left)
    rw [scalar?_of_not_timed plain, run, made]
    rfl

end BraceTemplate.Toml
