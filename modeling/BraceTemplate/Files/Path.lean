/-
# BraceTemplate.Files.Path — paths as text

A path is text with slashes between its parts, and is kept as it was made up: joining and cutting
never clean it up. Empty parts and single dots name no step, except a single dot at the beginning.
-/
import BraceTemplate.Text.Cut

namespace BraceTemplate.Path

set_option autoImplicit false

open Text

/-- The texts between the slashes of a path. -/
def parts (path : String) : List (List Char) :=
  splitAt '/' path.toList

/-- The path with given texts between its slashes. -/
def ofParts (parts : List (List Char)) : String :=
  String.ofList (joinWith ['/'] parts)

/-- Whether a path begins at the root. -/
def isAbsolute (path : String) : Bool :=
  path.toList.head? = some '/'

/-- A part that names no step. -/
def isFiller (part : List Char) : Bool :=
  part.isEmpty || part = ['.']

/-- Parts up to the last one that names a step. -/
def dropFillers (parts : List (List Char)) : List (List Char) :=
  match (parts.reverse.dropWhile isFiller).reverse, parts with
  | [], ['.'] :: _ => [['.']]
  | kept, _ => kept

/-- A path followed by another, or the other if it begins at the root. -/
def join (base path : String) : String :=
  if isAbsolute path || base.isEmpty then path
  else if base.toList.getLast? = some '/' then base ++ path
  else base ++ "/" ++ path

/-- The name at the end of a path. -/
def fileName? (path : String) : Option (List Char) :=
  match (dropFillers (parts path)).getLast? with
  | some name => if name = ['.'] ∨ name = ['.', '.'] then none else some name
  | none => none

/-- A name without its extension, and the extension, which follows its last dot. A dot at the
beginning begins no extension. -/
def splitName (name : List Char) : List Char × Option (List Char) :=
  let extension := (name.reverse.takeWhile (· != '.')).reverse
  let stem := name.take (name.length - extension.length - 1)
  if extension.length = name.length || stem.isEmpty then (name, none) else (stem, some extension)

/-- The extension of the name at the end of a path. -/
def extension? (path : String) : Option String :=
  (fileName? path).bind fun name => (splitName name).2.map String.ofList

/-- A path whose name has another extension; an empty one stands for none. -/
def withExtension (path extension : String) : String :=
  match fileName? path with
  | none => path
  | some name =>
      let stem := (splitName name).1
      let suffix := if extension.isEmpty then [] else '.' :: extension.toList
      ofParts ((dropFillers (parts path)).dropLast ++ [stem ++ suffix])

/-- The path without its last step, if it has one. -/
def parent? (path : String) : Option String :=
  match dropFillers (parts path) with
  | [] => none
  | kept =>
      match dropFillers kept.dropLast with
      | [] => some (if isAbsolute path then "/" else "")
      | above => some (ofParts above)

/-- A path and those without its last steps, one step less each time; at most `fuel` of them. -/
def ancestorsWithin : Nat → String → List String
  | 0, _ => []
  | fuel + 1, path =>
      path :: match parent? path with
        | some above => ancestorsWithin fuel above
        | none => []

/-- A path and those without its last steps, one step less each time. -/
def ancestors (path : String) : List String :=
  ancestorsWithin (path.length + 2) path

end BraceTemplate.Path
