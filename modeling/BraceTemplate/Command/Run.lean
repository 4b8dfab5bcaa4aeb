/-
# BraceTemplate.Command.Run — running commands

A command ends in a report: the texts for the two output channels and the exit code, which is 0
after success, 1 after a failure and 2 if the command line is no request. A check goes through all
its templates and fails in the end if one of them is not accepted.
-/
import BraceTemplate.Command.Arguments
import BraceTemplate.Command.Job
import BraceTemplate.Json.Printer

namespace BraceTemplate

set_option autoImplicit false

/-- What a command line leads to. -/
structure Report where
  out : String
  err : String
  code : UInt32
  deriving DecidableEq, Repr

namespace Report

/-- A success. -/
def success (out err : String) : Report := ⟨out, err, 0⟩

/-- A failure after some output. -/
def failure (out err : String) (f : Failure) : Report :=
  ⟨out, err ++ "Error: " ++ f.message ++ "\n", 1⟩

end Report

/-- The text of a render, unless it failed. -/
def Outcome.toExcept : Outcome → Except Failure String
  | .text s => .ok s
  | .failed e => .error (.render e)
  | .fault f => .error (.fault f)

namespace Command

variable {m : Type → Type} [Monad m]

/-- The settings in the named file, or those found from the current directory. -/
def settings (files : Files m) (current : String) : Option String → ExceptT Failure m Settings
  | some path => Settings.load files path
  | none => Settings.discover files current

/-- Renders and prints the text or writes it to a file. -/
def runRender (files : Files m) (s : Settings) (verbose : Bool) (r : RenderRequest) :
    m Report := do
  match ← (Job.gather files s r).run with
  | .error f => return .failure "" "" f
  | .ok job =>
      let err := if verbose then job.announcement else ""
      match job.run.toExcept, r.output with
      | .error f, _ => return .failure "" err f
      | .ok text, none => return .success text err
      | .ok text, some path =>
          if ← files.write path text then
            let size := toString text.utf8ByteSize
            let count := toString job.context.size
            return .success ("✓ Rendered " ++ size ++ " bytes to " ++ path ++ " (" ++ count ++
              " variable(s))\n") err
          else return .failure "" err (.unwritable path)

/-- What a check says about a template, and whether it is accepted. -/
def checkOne (files : Files m) (s : Settings) (verbose : Bool) (name : String) :
    m (String × Bool) := do
  let announcement ←
    if verbose then pure ("→ Checking " ++ (← s.templatePath files name) ++ "\n") else pure ""
  match ← (s.loadTemplate files name).run with
  | .error f => return (announcement ++ "✗ " ++ f.message ++ "\n", false)
  | .ok t =>
      return (announcement ++ "✓ " ++ name ++ ": " ++ toString t.opCount ++ " operation(s), " ++
        toString t.blockNames.length ++ " block(s)\n", true)

/-- Checks templates. -/
def runCheck (files : Files m) (s : Settings) (verbose : Bool) (names : List String) :
    m Report := do
  let results ← names.mapM (checkOne files s verbose)
  let out := String.join (results.map Prod.fst)
  let rejected := (results.filter fun result => !result.2).length
  if rejected = 0 then return .success out ""
  else return .failure out "" (.rejected rejected names.length)

/-- Lists the blocks of a template. -/
def runBlocks (files : Files m) (s : Settings) (name : String) (json : Bool) : m Report := do
  match ← (s.loadTemplate files name).run with
  | .error f => return .failure "" "" f
  | .ok t =>
      let out :=
        if json then (Json.array (t.blockNames.map .string)).text ++ "\n"
        else if t.blockNames.isEmpty then "! No blocks defined in " ++ t.name ++ "\n"
        else String.join (t.blockNames.map (· ++ "\n"))
      return .success out ""

/-- Runs a request in a current directory. -/
def run (files : Files m) (current : String) (request : Request) : m Report := do
  match ← (settings files current request.config).run with
  | .error f => return .failure "" "" f
  | .ok s =>
      match request.command with
      | .render r => runRender files s request.verbose r
      | .check names => runCheck files s request.verbose names
      | .blocks name json => runBlocks files s name json

/-- How the program is used. -/
def usage : String :=
  "Usage: stencil [-v] [--config FILE] COMMAND\n" ++
  "\n" ++
  "  render TEMPLATE [-d FILE]... [-s KEY=VALUE]... [-l LAYOUT] [-o FILE] [--no-builtins]\n" ++
  "  check TEMPLATE...\n" ++
  "  blocks TEMPLATE [--json]\n" ++
  "  help [COMMAND]\n"

/-- The name and version of the program. -/
def version : String :=
  "stencil 0.1.0\n"

/-- Runs a command line in a current directory, given the configuration file that is configured
outside it. -/
def runWords (files : Files m) (current : String) (configured : Option String)
    (words : List String) : m Report :=
  match Arguments.parse configured words with
  | .error .help => return .success usage ""
  | .error .version => return .success version ""
  | .error .invalid => return ⟨"", usage, 2⟩
  | .ok request => run files current request

end Command

end BraceTemplate
