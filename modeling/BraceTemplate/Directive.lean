/-
# BraceTemplate.Directive — what a section asks for

`Directive.ofSection` reads a section by itself: its expression, or its keyword and arguments.
Comments and empty sections ask for nothing. Whether a directive may stand where it does is decided
when the directives are arranged in a row.

* `Directive.eq_text_of_ofSection`: only text asks for text.
-/
import BraceTemplate.CompileError
import BraceTemplate.Section

namespace BraceTemplate

set_option autoImplicit false

/-- A well-formed section. -/
inductive Directive where
  | text (s : String)
  | output (expr : Expr)
  | call (name : String) (arguments : List (String × Expr))
  | openIf (condition : Expr)
  | orElse
  | closeIf
  | openFor (item : String) (collection : Expr)
  | closeFor
  | openBlock (name : String)
  /-- The label is empty or names the block that is closed. -/
  | closeBlock (label : String)
  deriving DecidableEq, Repr

namespace Directive

open Text CompileError

/-- An expression within a directive. -/
def readExpr (s : List Char) : Except Cause Expr :=
  (Expr.ofChars s).mapError .badExpression

/-- A directive that takes no arguments. -/
def readBare (keyword : String) (arguments : List Char) (d : Directive) : Except Cause Directive :=
  if arguments.isEmpty then .ok d
  else .error (.unexpectedArguments keyword (String.ofList arguments))

/-- The condition of an `if`. -/
def readIf (arguments : List Char) : Except Cause Directive :=
  if arguments.isEmpty then .error .missingCondition
  else do
    let condition ← readExpr arguments
    return .openIf condition

/-- The item name and the collection of a `for`, with blanks between them. -/
def readFor (arguments : List Char) : Except Cause Directive :=
  match cutAt? isBlank arguments with
  | none => .error .missingLoopParts
  | some (item, collection) =>
      if isName item then
        if (trim collection).isEmpty then .error .missingCollection
        else do
          let collection ← readExpr (trim collection)
          return .openFor (String.ofList item) collection
      else .error (.badItem (String.ofList item))

/-- The name of a block. -/
def readBlock (arguments : List Char) : Except Cause Directive :=
  if arguments.isEmpty then .error .missingBlockName
  else if isName arguments then .ok (.openBlock (String.ofList arguments))
  else .error (.badBlockName (String.ofList arguments))

/-- One argument of a call, after those before it. -/
def readArgument (before : List (String × Expr)) (s : List Char) :
    Except Cause (List (String × Expr)) :=
  match cutAt? (· == '=') s with
  | none => .error (.argumentWithoutValue (String.ofList (trim s)))
  | some (key, value) =>
      let name := String.ofList (trim key)
      if isName (trim key) then
        if before.any (·.1 == name) then .error (.repeatedArgument name)
        else do
          let expr ← readExpr value
          return before ++ [(name, expr)]
      else .error (.badArgumentName name)

/-- The name and the arguments of a call, with commas between them. -/
def readCall (arguments : List Char) : Except Cause Directive :=
  match Expr.splitOutside ',' 0 none arguments with
  | [] => .error .missingCallee
  | callee :: rest =>
      let name := trim callee
      if name.isEmpty then .error .missingCallee
      else if isName name then do
        let arguments ← rest.foldlM readArgument []
        return .call (String.ofList name) arguments
      else .error (.badCallee (String.ofList name))

/-- The keyword of an action and its arguments, without the blanks around them. -/
def keywordAndArguments (action : List Char) : List Char × List Char :=
  match cutAt? isBlank action with
  | none => (action, [])
  | some (keyword, arguments) => (keyword, trim arguments)

/-- The directive of a keyword with its arguments. -/
def readAs (keyword : String) (arguments : List Char) : Except Cause Directive :=
  match keyword with
  | "if" => readIf arguments
  | "else" => readBare "else" arguments .orElse
  | "endif" => readBare "endif" arguments .closeIf
  | "for" => readFor arguments
  | "endfor" => readBare "endfor" arguments .closeFor
  | "block" => readBlock arguments
  | "endblock" => .ok (.closeBlock (String.ofList arguments))
  | "call" => readCall arguments
  | "" => .error .emptyAction
  | other => .error (.unknownKeyword other)

/-- The directive of an action. -/
def readAction (action : List Char) : Except Cause Directive :=
  let (keyword, arguments) := keywordAndArguments action
  readAs (String.ofList keyword) arguments

/-- The directive of a section, if it asks for anything. -/
def ofSection : Section → Except Cause (Option Directive)
  | .text s => .ok (some (.text (String.ofList s)))
  | .brace c => .ok (some (.text (String.singleton c)))
  | .comment => .ok none
  | .nothing => .ok none
  | .output s => (readExpr s).map fun expr => some (.output expr)
  | .action s => (readAction s).map some
  | .unclosed column => .error (.unclosedBrace column)

section

variable {s : String}

theorem bind_ne_text {α : Type} {x : Except Cause α} {f : α → Except Cause Directive}
    (never : ∀ a, f a ≠ .ok (.text s)) : x >>= f ≠ .ok (.text s) := by
  cases x with
  | error cause => nofun
  | ok a => exact never a

theorem readIf_ne_text (arguments : List Char) : readIf arguments ≠ .ok (.text s) := by
  rw [readIf]
  split
  · nofun
  · exact bind_ne_text nofun

theorem readBare_ne_text (keyword : String) (arguments : List Char) {d : Directive}
    (other : d ≠ .text s) : readBare keyword arguments d ≠ .ok (.text s) := by
  rw [readBare]
  split
  · exact fun same => other (Except.ok.inj same)
  · nofun

theorem readFor_ne_text (arguments : List Char) : readFor arguments ≠ .ok (.text s) := by
  rw [readFor]
  split
  · nofun
  · split
    · split
      · nofun
      · exact bind_ne_text nofun
    · nofun

theorem readBlock_ne_text (arguments : List Char) : readBlock arguments ≠ .ok (.text s) := by
  rw [readBlock]
  split
  · nofun
  · split <;> nofun

theorem readCall_ne_text (arguments : List Char) : readCall arguments ≠ .ok (.text s) := by
  rw [readCall]
  split
  · nofun
  · simp only
    split
    · nofun
    · split
      · exact bind_ne_text nofun
      · nofun

/-- No action asks for text. -/
theorem readAction_ne_text (action : List Char) : readAction action ≠ .ok (.text s) := by
  rw [readAction]
  simp only
  unfold readAs
  split
  · exact readIf_ne_text _
  · exact readBare_ne_text _ _ nofun
  · exact readBare_ne_text _ _ nofun
  · exact readFor_ne_text _
  · exact readBare_ne_text _ _ nofun
  · exact readBlock_ne_text _
  · nofun
  · exact readCall_ne_text _
  · nofun
  · nofun

end

/-- A section asks for an empty text only if it is one. -/
theorem eq_text_of_ofSection {s : Section} (asked : ofSection s = .ok (some (.text ""))) :
    s = .text [] := by
  cases s with
  | text s => simpa [ofSection] using asked
  | brace c => simp [ofSection] at asked
  | comment | nothing | unclosed => cases asked
  | output s =>
      rw [ofSection] at asked
      cases read : readExpr s <;> rw [read] at asked <;> cases asked
  | action s =>
      rw [ofSection] at asked
      cases read : readAction s with
      | error cause => rw [read] at asked; cases asked
      | ok d =>
          rw [read] at asked
          obtain rfl := Option.some.inj (Except.ok.inj asked)
          exact absurd read (readAction_ne_text s)

end Directive

end BraceTemplate
