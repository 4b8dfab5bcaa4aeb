/-
# BraceTemplate.Render.Error — why a render fails

A render error names the operation that failed: the template it belongs to, its position and its
line.
-/

namespace BraceTemplate

set_option autoImplicit false

namespace RenderError

/-- What an operation could not do. -/
inductive Cause where
  /-- A name is not bound, or what is to be written out is no value. -/
  | undefinedVariable (name : String)
  | unresolvableStep (path step : String)
  | unknownModifier (name : String)
  | unknownCallable (name : String)
  | modifierFailed (name message : String)
  | callableFailed (name message : String)
  /-- The collection of a loop is no list. -/
  | notIterable (expr kind : String)
  /-- A list or map is to be written out. -/
  | notRenderable (expr kind : String)
  deriving DecidableEq, Repr

/-- The wording of a cause. -/
def Cause.message : Cause → String
  | .undefinedVariable name => "UNDEFINED_VARIABLE: '" ++ name ++ "' is not defined"
  | .unresolvableStep path step =>
      "UNRESOLVABLE_PATH_STEP: cannot resolve '" ++ step ++ "' in '" ++ path ++ "'"
  | .unknownModifier name => "UNKNOWN_MODIFIER: modifier '" ++ name ++ "' is not registered"
  | .unknownCallable name => "UNKNOWN_CALLABLE: callable '" ++ name ++ "' is not registered"
  | .modifierFailed name message => "MODIFIER_FAILED: '" ++ name ++ "': " ++ message
  | .callableFailed name message => "CALLABLE_FAILED: '" ++ name ++ "': " ++ message
  | .notIterable expr kind =>
      "NOT_ITERABLE: '" ++ expr ++ "' is a " ++ kind ++ ", expected a list"
  | .notRenderable expr kind =>
      "NOT_RENDERABLE: '" ++ expr ++ "' is a " ++ kind ++
        " and has no text form. Use nested keys or \x7b%for%\x7d"

end RenderError

/-- A render error. -/
structure RenderError where
  template : String
  /-- The position of the operation in its template. -/
  opIndex : Nat
  line : Nat
  cause : RenderError.Cause
  deriving DecidableEq, Repr

/-- The message of an error: the wording of its cause and its place. -/
def RenderError.message (e : RenderError) : String :=
  e.cause.message ++ " (template '" ++ e.template ++ "', line " ++ toString e.line ++ ", op " ++
    toString e.opIndex ++ ")"

end BraceTemplate
