/-
# BraceTemplate.Command.Arguments — reading command lines

The words of a command line form two levels: the options before the name of the command, and the
options and operands after it. A level is read from left to right, and the first word that asks for
help or cannot be accepted decides. An operand for which a level has no room ends it.

* `--name value` and `--name=value` give an option with its value; `-n value`, `-nvalue` and
  `-n=value` give it by its letter. Letters of options without a value may share a word.
* A word that begins with a hyphen is no value, unless it is a single hyphen or stands in the word
  of its option. The values of options that name files are not empty.
* An option that is not repeatable stands once at a level.
* After `--` all words are operands.
-/
import BraceTemplate.Command
import BraceTemplate.Text.Cut

namespace BraceTemplate

set_option autoImplicit false

open Text

/-- The options. -/
inductive Switch where
  | verbose
  | config
  | help
  | version
  | data
  | assign
  | layout
  | output
  | noBuiltins
  | json
  deriving DecidableEq, Repr

namespace Switch

/-- What an option has for a value. -/
inductive Kind where
  | flag
  | text
  | path
  deriving DecidableEq, Repr

/-- The name after two hyphens. -/
def name : Switch → String
  | verbose => "verbose"
  | config => "config"
  | help => "help"
  | version => "version"
  | data => "data"
  | assign => "set"
  | layout => "layout"
  | output => "output"
  | noBuiltins => "no-builtins"
  | json => "json"

/-- The letter after one hyphen. -/
def letter? : Switch → Option Char
  | verbose => some 'v'
  | help => some 'h'
  | version => some 'V'
  | data => some 'd'
  | assign => some 's'
  | layout => some 'l'
  | output => some 'o'
  | config | noBuiltins | json => none

def kind : Switch → Kind
  | verbose | help | version | noBuiltins | json => .flag
  | assign | layout => .text
  | config | data | output => .path

/-- Whether an option may be given several times. -/
def repeats : Switch → Bool
  | data | assign => true
  | _ => false

/-- The options before the name of a command. -/
def ofAll : List Switch :=
  [verbose, config, help, version]

/-- The options after the name of every command. -/
def ofEach : List Switch :=
  [verbose, config, help]

end Switch

namespace Arguments

/-- What has been read of a level, in order. -/
structure Given where
  switches : List (Switch × String)
  operands : List String

namespace Given

/-- A level of which nothing has been read. -/
def empty : Given := ⟨[], []⟩

/-- Whether an option is given. -/
def has (g : Given) (s : Switch) : Bool :=
  g.switches.any (·.1 = s)

/-- The values of an option. -/
def values (g : Given) (s : Switch) : List String :=
  (g.switches.filter (·.1 = s)).map Prod.snd

/-- The value of an option. -/
def value? (g : Given) (s : Switch) : Option String :=
  (g.values s).head?

/-- Adds an option with its value, which is empty for one without. -/
def add (g : Given) (s : Switch) (value : List Char) : Except Stop Given :=
  if s = .help then .error .help
  else if s = .version then .error .version
  else if s.kind = .path ∧ value = [] then .error .invalid
  else if g.has s ∧ s.repeats = false then .error .invalid
  else .ok { g with switches := g.switches ++ [(s, String.ofList value)] }

end Given

/-- What a word of options leads to: the level with them, and an option whose value is to come. -/
abbrev Reading := Except Stop (Given × Option Switch)

/-- The option that follows two hyphens. -/
def readName (known : List Switch) (g : Given) (text : List Char) : Reading :=
  let (name, value) := match cutAt? (· == '=') text with
    | some (name, value) => (name, some value)
    | none => (text, none)
  match known.find? fun s => s.name.toList = name with
  | none => .error .invalid
  | some s =>
      match s.kind, value with
      | .flag, none => (g.add s []).map (·, none)
      | .flag, some _ => .error .invalid
      | _, none => .ok (g, some s)
      | _, some value => (g.add s value).map (·, none)

/-- The options whose letters follow one hyphen. What follows the letter of an option with a value
is the value, without an equals sign before it. -/
def readLetters (known : List Switch) (g : Given) : List Char → Reading
  | [] => .ok (g, none)
  | letter :: rest =>
      match known.find? fun s => s.letter? = some letter with
      | none => .error .invalid
      | some s =>
          match s.kind, rest with
          | .flag, rest =>
              match g.add s [] with
              | .error stop => .error stop
              | .ok g => readLetters known g rest
          | _, [] => .ok (g, some s)
          | _, '=' :: value => (g.add s value).map (·, none)
          | _, value => (g.add s value).map (·, none)

/-- Whether a word is read as options. -/
def isOptions : List Char → Bool
  | '-' :: _ :: _ => true
  | _ => false

/-- Reads the words of a level, given the option whose value is to come. A level has room for so
many operands, if there is a bound; the next one ends it, and the words from there on are left. After
`--` there is no end. -/
def readLevel (known : List Switch) (room : Option Nat) :
    Given → Option Switch → List String → Except Stop (Given × List String)
  | g, none, [] => .ok (g, [])
  | _, some _, [] => .error .invalid
  | g, some s, word :: rest =>
      if isOptions word.toList then .error .invalid
      else match g.add s word.toList with
        | .error stop => .error stop
        | .ok g => readLevel known room g none rest
  | g, none, word :: rest =>
      if word = "--" then .ok ({ g with operands := g.operands ++ rest }, [])
      else if isOptions word.toList then
        let reading := match word.toList with
          | '-' :: '-' :: text => readName known g text
          | text => readLetters known g (text.drop 1)
        match reading with
        | .error stop => .error stop
        | .ok (g, pending) => readLevel known room g pending rest
      else if room = some g.operands.length then .ok (g, word :: rest)
      else readLevel known room { g with operands := g.operands ++ [word] } none rest

/-- The names of the commands. -/
def commandNames : List String :=
  ["render", "check", "blocks"]

/-- The options that belong to the command of a name. -/
def ownSwitches (name : String) : List Switch :=
  match name with
  | "render" => [.data, .assign, .layout, .output, .noBuiltins]
  | "blocks" => [.json]
  | _ => []

/-- How many operands the command of a name has room for, if there is a bound. -/
def room? (name : String) : Option Nat :=
  if name = "check" then none else some 1

/-- The command of a name, if its operands are in order. -/
def command? (name : String) (g : Given) : Option Command :=
  match name, g.operands with
  | "render", [template] =>
      some (.render
        { template, dataFiles := g.values .data, assignments := g.values .assign
          layout := g.value? .layout, output := g.value? .output
          withoutBuiltins := g.has .noBuiltins })
  | "check", template :: more => some (.check (template :: more))
  | "blocks", [template] => some (.blocks template (g.has .json))
  | _, _ => none

/-- What the word `help` leads to, given the words after it: help, on a command if it is named. -/
def helpOn : List String → Stop
  | [] => .help
  | [name] => if name = "help" ∨ name ∈ commandNames then .help else .invalid
  | _ => .invalid

/-- The request that a command line makes. The configuration file named after the command comes
before one named before it, and both before `configured`, which must not be empty even if it is used
at one level only. -/
def parse (configured : Option String) (words : List String) : Except Stop Request := do
  let (outer, rest) ← readLevel Switch.ofAll (some 0) Given.empty none words
  match rest with
  | [] => throw .invalid
  | name :: rest =>
      if name = "help" then throw (helpOn rest)
      else if name ∈ commandNames then
        let known := Switch.ofEach ++ ownSwitches name
        let (inner, left) ← readLevel known (room? name) Given.empty none rest
        if left ≠ [] then throw .invalid
        if configured = some "" ∧ ¬(outer.has .config ∧ inner.has .config) then throw .invalid
        match command? name inner with
        | none => throw .invalid
        | some command =>
            return {
              verbose := outer.has .verbose || inner.has .verbose
              config := inner.value? .config <|> outer.value? .config <|> configured
              command }
      else throw .invalid

end Arguments

end BraceTemplate
