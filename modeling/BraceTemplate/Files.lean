/-
# BraceTemplate.Files — access to files

Commands reach files only through these operations, so they run on real files as well as on a tree
of files in memory.
-/

namespace BraceTemplate

set_option autoImplicit false

/-- Operations on files, given by their paths. -/
structure Files (m : Type → Type) where
  /-- Whether there is a file, and no directory, at a path. -/
  isFile : String → m Bool
  /-- The text of a file, unless it cannot be read or is no text. -/
  read : String → m (Option String)
  /-- Writes a text to a file; false if that is not possible. -/
  write : String → String → m Bool

end BraceTemplate
