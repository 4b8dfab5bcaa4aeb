/-
# BraceTemplate.Main — the program

Runs the command line on the files of the system.
-/
import BraceTemplate.Command.Run

namespace BraceTemplate

set_option autoImplicit false

/-- The files of the system. -/
def systemFiles : Files IO where
  isFile path := do
    if path.isEmpty then return false
    try return (← ((← IO.currentDir) / path).metadata).type == .file
    catch _ => return false
  read path := do
    try return String.fromUTF8? (← IO.FS.readBinFile path)
    catch _ => return none
  write path text := do
    try
      IO.FS.writeFile path text
      return true
    catch _ => return false

end BraceTemplate

open BraceTemplate

/-- Runs the command line; the environment variable `STENCIL_CONFIG` names the configuration file
that applies if the command line names none. -/
def main (words : List String) : IO UInt32 := do
  let configured ← IO.getEnv "STENCIL_CONFIG"
  let report ← Command.runWords systemFiles (← IO.currentDir).toString configured words
  IO.print report.out
  IO.eprint report.err
  return report.code
