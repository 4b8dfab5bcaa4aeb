/-
# BraceTemplate.CompileError — why a source text is no template

An error names the template, the line and the cause. Causes fall into five kinds; each kind has a
code that begins the message.
-/
import BraceTemplate.Expr.Parser

namespace BraceTemplate

set_option autoImplicit false

/-- The constructs that are opened and closed by directives of their own. -/
inductive Construct where
  | conditional
  | loop
  | block
  deriving DecidableEq, Repr

namespace Construct

/-- The keyword that opens a construct. -/
def keyword : Construct → String
  | .conditional => "if"
  | .loop => "for"
  | .block => "block"

/-- The keyword that closes a construct. -/
def endKeyword : Construct → String
  | .conditional => "endif"
  | .loop => "endfor"
  | .block => "endblock"

end Construct

namespace CompileError

/-- The kinds of compile errors. -/
inductive Kind where
  | unterminatedDirective
  | unknownDirectiveKeyword
  | mismatchedBlockNesting
  | malformedDirectiveSyntax
  | duplicateBlock
  deriving DecidableEq, Repr

/-- What a section does wrong by itself or after the sections before it. -/
inductive Cause where
  /-- A `{` at this byte of its line is not closed. -/
  | unclosedBrace (column : Nat)
  | emptyAction
  | unknownKeyword (keyword : String)
  | missingCondition
  | unexpectedArguments (keyword arguments : String)
  | missingLoopParts
  | badItem (name : String)
  | missingCollection
  | missingBlockName
  | badBlockName (name : String)
  | missingCallee
  | badCallee (name : String)
  | argumentWithoutValue (text : String)
  | badArgumentName (name : String)
  | repeatedArgument (name : String)
  | badExpression (error : Expr.Error)
  /-- The `if` opened on this line already has an `else`. -/
  | secondElse (line : Nat)
  /-- The innermost open construct, opened on this line, is no `if`. -/
  | elseInside (construct : Construct) (line : Nat)
  | elseOutside
  /-- The innermost open construct, opened on this line, is another one. -/
  | closesOther (closed opened : Construct) (line : Nat)
  | closesNothing (closed : Construct)
  | closesOtherBlock (label name : String)
  | neverClosed (construct : Construct)
  | blockAlreadyDefined (name : String)
  deriving DecidableEq, Repr

/-- The code of a kind. -/
def Kind.code : Kind → String
  | .unterminatedDirective => "UNTERMINATED_DIRECTIVE"
  | .unknownDirectiveKeyword => "UNKNOWN_DIRECTIVE_KEYWORD"
  | .mismatchedBlockNesting => "MISMATCHED_BLOCK_NESTING"
  | .malformedDirectiveSyntax => "MALFORMED_DIRECTIVE_SYNTAX"
  | .duplicateBlock => "DUPLICATE_BLOCK"

/-- The kind of a cause. -/
def Cause.kind : Cause → Kind
  | .unclosedBrace _ => .unterminatedDirective
  | .emptyAction | .unknownKeyword _ => .unknownDirectiveKeyword
  | .missingCondition | .unexpectedArguments _ _ | .missingLoopParts | .badItem _
  | .missingCollection | .missingBlockName | .badBlockName _ | .missingCallee | .badCallee _
  | .argumentWithoutValue _ | .badArgumentName _ | .repeatedArgument _ | .badExpression _ =>
      .malformedDirectiveSyntax
  | .secondElse _ | .elseInside _ _ | .elseOutside | .closesOther _ _ _ | .closesNothing _
  | .closesOtherBlock _ _ | .neverClosed _ => .mismatchedBlockNesting
  | .blockAlreadyDefined _ => .duplicateBlock

/-- A text in single quotes. -/
def inQuotes (s : String) : String :=
  "'" ++ s ++ "'"

/-- The wording of a cause. -/
def Cause.message : Cause → String
  | .unclosedBrace column =>
      "'\x7b' at column " ++ toString (column + 1) ++ " has no closing '\x7d' on the same line"
  | .emptyAction => "empty action directive"
  | .unknownKeyword keyword => "unknown directive keyword " ++ inQuotes keyword
  | .missingCondition => "'if' requires a condition"
  | .unexpectedArguments keyword arguments =>
      inQuotes keyword ++ " takes no arguments, found " ++ inQuotes arguments
  | .missingLoopParts => "'for' requires an item name and a collection"
  | .badItem name => inQuotes name ++ " is not a valid loop variable name"
  | .missingCollection => "'for' requires a collection"
  | .missingBlockName => "'block' requires a name"
  | .badBlockName name => inQuotes name ++ " is not a valid block name"
  | .missingCallee => "'call' requires a callable name"
  | .badCallee name => inQuotes name ++ " is not a valid callable name"
  | .argumentWithoutValue text => "expected key=expr, found " ++ inQuotes text
  | .badArgumentName name => inQuotes name ++ " is not a valid argument name"
  | .repeatedArgument name => "argument " ++ inQuotes name ++ " given twice"
  | .badExpression error => error.message
  | .secondElse line => "second 'else' for 'if' from line " ++ toString line
  | .elseInside construct line =>
      "'else' inside " ++ inQuotes construct.keyword ++ " from line " ++ toString line
  | .elseOutside => "'else' without matching 'if'"
  | .closesOther closed opened line =>
      inQuotes closed.endKeyword ++ " does not match open " ++ inQuotes opened.keyword ++
        " from line " ++ toString line
  | .closesNothing closed =>
      inQuotes closed.endKeyword ++ " without matching " ++ inQuotes closed.keyword
  | .closesOtherBlock label name =>
      inQuotes ("endblock " ++ label) ++ " does not match open block " ++ inQuotes name
  | .neverClosed construct => inQuotes construct.keyword ++ " is never closed"
  | .blockAlreadyDefined name => "block " ++ inQuotes name ++ " is already defined"

end CompileError

/-- A compile error. -/
structure CompileError where
  template : String
  /-- The line, counted from one. -/
  line : Nat
  cause : CompileError.Cause
  deriving DecidableEq, Repr

namespace CompileError

/-- The message of an error: its code, its place and the wording of its cause. -/
def message (e : CompileError) : String :=
  e.cause.kind.code ++ ": " ++ e.template ++ ":" ++ toString e.line ++ ": " ++ e.cause.message

end CompileError

end BraceTemplate
