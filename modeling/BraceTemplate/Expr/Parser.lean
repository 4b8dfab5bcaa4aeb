/-
# BraceTemplate.Expr.Parser — reading expressions

`Expr.parse` reads the spelling that `Expr.text` writes and its variants: blanks around the path,
around each modifier and inside brackets, single or double quotes, indexes after a dot, leading
zeros. The text is first divided at each `|` outside brackets; the first part is the path, the
others are modifiers. The first fault from the left is reported, and the path is read before the
modifiers.

`splitOutside` counts nested brackets and skips quoted text inside them, while a bracket step ends
at its first unquoted `]`.
-/
import BraceTemplate.Expr
import BraceTemplate.Text.Blank
import BraceTemplate.Text.Cut

namespace BraceTemplate

set_option autoImplicit false

/-- Why a text is not an expression. -/
inductive Expr.Fault where
  | missingName
  | badName (name : String)
  | emptyStep
  | badStep (step : String)
  | indexOutOfRange (digits : String)
  | unclosedBracket
  | emptyBracket
  | unterminatedKey (inner : String)
  | badIndex (inner : String)
  | unexpectedText (rest : String)
  | emptyModifier
  | badModifier (name : String)
  deriving DecidableEq, Repr

/-- A text that is not an expression, with the reason. -/
structure Expr.Error where
  /-- The text that was read, without the blanks at its ends. -/
  text : String
  fault : Expr.Fault
  deriving DecidableEq, Repr

namespace Expr

open Text

/-- The wording of a fault. -/
def Fault.message : Fault → String
  | .missingName => "missing variable name"
  | .badName name => "'" ++ name ++ "' is not a valid variable name"
  | .emptyStep => "empty path step"
  | .badStep step => "invalid path step '" ++ step ++ "'"
  | .indexOutOfRange digits => "index '" ++ digits ++ "' out of range"
  | .unclosedBracket => "unclosed '['"
  | .emptyBracket => "empty '[]' step"
  | .unterminatedKey inner => "unterminated quoted key " ++ inner
  | .badIndex inner => "invalid index '" ++ inner ++ "'"
  | .unexpectedText rest => "unexpected text '" ++ rest ++ "'"
  | .emptyModifier => "empty modifier name"
  | .badModifier name => "invalid modifier name '" ++ name ++ "'"

/-- The wording of an expression error. -/
def Error.message (e : Error) : String :=
  "invalid expression '" ++ e.text ++ "': " ++ e.fault.message

/-- A quote character of quoted keys. -/
def isQuote (c : Char) : Bool :=
  c == '\'' || c == '"'

/-- Puts a character in front of the first of several parts. -/
def consFirst (c : Char) : List (List Char) → List (List Char)
  | [] => [[c]]
  | part :: parts => (c :: part) :: parts

/-- The parts of a text between separators that stand outside brackets, read inside `depth`
brackets and, if `quote` is given, inside text quoted by it. Quotes count only inside brackets. -/
def splitOutside (separator : Char) (depth : Nat) (quote : Option Char) :
    List Char → List (List Char)
  | [] => [[]]
  | c :: cs =>
      match quote with
      | some q => consFirst c (splitOutside separator depth (if c == q then none else quote) cs)
      | none =>
          if isQuote c && depth != 0 then consFirst c (splitOutside separator depth (some c) cs)
          else if c == '[' then consFirst c (splitOutside separator (depth + 1) none cs)
          else if c == ']' then consFirst c (splitOutside separator (depth - 1) none cs)
          else if c == separator && depth == 0 then [] :: splitOutside separator 0 none cs
          else consFirst c (splitOutside separator depth none cs)

/-- The text up to the `]` that ends a bracket step and the text after it. Quoted text is
skipped. -/
def cutBracket? (quote : Option Char) : List Char → Option (List Char × List Char)
  | [] => none
  | c :: cs =>
      let next (quote : Option Char) :=
        (cutBracket? quote cs).map fun (inner, after) => (c :: inner, after)
      match quote with
      | some q => next (if c == q then none else quote)
      | none =>
          if isQuote c then next (some c)
          else if c == ']' then some ([], cs)
          else next none

theorem length_after_cutBracket? {s inner after : List Char} {quote : Option Char}
    (h : cutBracket? quote s = some (inner, after)) : after.length < s.length := by
  induction s generalizing quote inner with
  | nil => simp [cutBracket?] at h
  | cons c cs ih =>
    have key : ∀ {quote' : Option Char},
        ((cutBracket? quote' cs).map fun (u, v) => (c :: u, v)) = some (inner, after) →
          after.length < (c :: cs).length := by
      intro quote' h
      obtain ⟨⟨u, v⟩, huv, heq⟩ := Option.map_eq_some_iff.1 h
      obtain ⟨-, rfl⟩ := Prod.mk.inj heq
      exact Nat.lt_succ_of_lt (ih huv)
    simp only [cutBracket?] at h
    split at h
    · exact key h
    · split at h
      · exact key h
      · split at h
        · obtain ⟨-, rfl⟩ := Prod.mk.inj (Option.some.inj h)
          simp
        · exact key h

/-- An index below 2⁶⁴ from its digits. -/
def readIndex (digits : List Char) : Except Fault Step :=
  let n := valueOf digits
  if h : n < UInt64.size then .ok (.index (UInt64.ofNatLT n h))
  else .error (.indexOutOfRange (String.ofList digits))

/-- The step that stands after a dot. -/
def readDotted (s : List Char) : Except Fault Step :=
  if s.isEmpty then .error .emptyStep
  else if isDigits s then readIndex s
  else if isName s then .ok (.key (String.ofList s))
  else .error (.badStep (String.ofList s))

/-- The text before a final `quote`, if the text ends so. -/
def unquoteEnd? (quote : Char) (s : List Char) : Option (List Char) :=
  if s.getLast? = some quote then some s.dropLast else none

/-- The step that stands between brackets, given without the blanks around it. -/
def readBracketed : List Char → Except Fault Step
  | [] => .error .emptyBracket
  | c :: cs =>
      if isQuote c then
        match unquoteEnd? c cs with
        | some key => .ok (.key (String.ofList key))
        | none => .error (.unterminatedKey (String.ofList (c :: cs)))
      else if isDigits (c :: cs) then readIndex (c :: cs)
      else .error (.badIndex (String.ofList (c :: cs)))

/-- A character that begins the next step. -/
def beginsStep (c : Char) : Bool :=
  c == '.' || c == '['

/-- The steps that a text consists of. -/
def readSteps : List Char → Except Fault (List Step)
  | [] => .ok []
  | c :: cs =>
      if c == '.' then do
        let step ← readDotted (cs.takeWhile (!beginsStep ·))
        let steps ← readSteps (cs.dropWhile (!beginsStep ·))
        return step :: steps
      else if c == '[' then
        match _h : cutBracket? none cs with
        | none => .error .unclosedBracket
        | some (inner, after) => do
            let step ← readBracketed (trim inner)
            let steps ← readSteps after
            return step :: steps
      else .error (.unexpectedText (String.ofList (c :: cs)))
  termination_by s => s.length
  decreasing_by
    · have := length_dropWhile_le (!beginsStep ·) cs
      simp only [List.length_cons]
      omega
    · have := length_after_cutBracket? _h
      simp only [List.length_cons]
      omega

/-- The variable and the steps that a path consists of. -/
def readPath (path : List Char) : Except Fault (String × List Step) :=
  let root := path.takeWhile (!beginsStep ·)
  if isName root then do
    let steps ← readSteps (path.dropWhile (!beginsStep ·))
    return (String.ofList root, steps)
  else .error (.badName (String.ofList root))

/-- The name of a modifier, which may have blanks around it. -/
def readModifier (s : List Char) : Except Fault String :=
  let name := trim s
  if name.isEmpty then .error .emptyModifier
  else if isName name then .ok (String.ofList name)
  else .error (.badModifier (String.ofList name))

/-- The expression whose path and modifiers are given one by one. -/
def readParts : List (List Char) → Except Fault Expr
  | [] => .error .missingName
  | path :: modifiers =>
      if (trim path).isEmpty then .error .missingName
      else do
        let (root, steps) ← readPath (trim path)
        let names ← modifiers.mapM readModifier
        return ⟨root, steps, names⟩

/-- The expression that the characters of a text denote. -/
def ofChars (s : List Char) : Except Error Expr :=
  (readParts (splitOutside '|' 0 none s)).mapError fun fault => ⟨String.ofList (trim s), fault⟩

/-- The expression that a text denotes. -/
def parse (text : String) : Except Error Expr :=
  ofChars text.toList

end Expr

end BraceTemplate
