/-
# BraceTemplate.Files.Tree — files in memory

A tree of directories and files, on which paths are followed step by step from a current directory:
every step but the last must lead to a directory, and two dots lead to the directory above. Paths
and names are limited in length.
-/
import BraceTemplate.Dict
import BraceTemplate.Files
import BraceTemplate.Files.Path

namespace BraceTemplate

set_option autoImplicit false

/-- A file, a device or a directory. -/
inductive FileTree where
  /-- A file and its text, if its bytes are text. -/
  | file (text : Option String)
  /-- A device that has no text, and to which any text can be written without effect. -/
  | device
  | directory (entries : List (String × FileTree))

namespace FileTree

instance : Inhabited FileTree := ⟨.directory []⟩

/-- What names lead to. -/
def find? (tree : FileTree) : List String → Option FileTree
  | [] => some tree
  | name :: rest =>
      match tree with
      | .file _ | .device => none
      | .directory entries => (Dict.find? entries name).bind fun inner => inner.find? rest

/-- A tree in which names lead to something else. Directories on the way are made if missing; a file
on the way is replaced. -/
def put (tree : FileTree) (new : FileTree) : List String → FileTree
  | [] => new
  | name :: rest =>
      let entries := match tree with
        | .file _ | .device => []
        | .directory entries => entries
      let inner := (Dict.find? entries name).getD (.directory [])
      .directory (Dict.insert entries name (inner.put new rest))

/-- Whether names lead to a directory. -/
def isDirectory (tree : FileTree) (names : List String) : Bool :=
  match tree.find? names with
  | some (.directory _) => true
  | _ => false

/-- The names that a path leads to from a place; each step begins in a directory. -/
def walk (tree : FileTree) (place : List String) : List (List Char) → Option (List String)
  | [] => some place
  | part :: rest =>
      if tree.isDirectory place then
        if Path.isFiller part then tree.walk place rest
        else if part = ['.', '.'] then tree.walk place.dropLast rest
        else tree.walk (place ++ [String.ofList part]) rest
      else none

/-- The most bytes that a name may have. -/
def nameLimit : Nat := 255

/-- The most bytes that a path may have. -/
def pathLimit : Nat := 4095

/-- The names that a path leads to from the current directory. -/
def resolve (tree : FileTree) (current : List String) (path : String) : Option (List String) :=
  if path.isEmpty ∨ pathLimit < path.utf8ByteSize then none
  else tree.walk (if Path.isAbsolute path then [] else current) (Path.parts path)

/-- The text of a file. -/
def read? (tree : FileTree) (current : List String) (path : String) : Option String :=
  match (tree.resolve current path).bind tree.find? with
  | some (.file text) => text
  | some .device => some ""
  | _ => none

/-- Whether a path leads to a file. -/
def isFile (tree : FileTree) (current : List String) (path : String) : Bool :=
  match (tree.resolve current path).bind tree.find? with
  | some (.file _) => true
  | _ => false

/-- The tree after a text is written to a file, if that is possible. -/
def write? (tree : FileTree) (current : List String) (path text : String) : Option FileTree :=
  match tree.resolve current path with
  | none => none
  | some place =>
      match tree.find? place with
      | some (.directory _) => none
      | some .device => some tree
      | some (.file _) => some (tree.put (.file (some text)) place)
      | none =>
          if tree.isDirectory place.dropLast ∧ place.all (·.utf8ByteSize ≤ nameLimit) then
            some (tree.put (.file (some text)) place)
          else none

/-- The operations on a tree of files that is kept as state. -/
def files (current : List String) : Files (StateM FileTree) where
  isFile path := return (← get).isFile current path
  read path := return (← get).read? current path
  write path text := do
    match (← get).write? current path text with
    | some tree => set tree; return true
    | none => return false

end FileTree

end BraceTemplate
