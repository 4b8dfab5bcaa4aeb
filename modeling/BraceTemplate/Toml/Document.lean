/-
# BraceTemplate.Toml.Document — tables under construction

A document is a tree of tables in which statements set keys and open tables. How a table came about
decides what may still be done to it: a table that a header defined is complete, one that only a
longer header implied may still be defined once, and one that a dotted key made may take more dotted
keys. Every key is set at most once.

The entries of a table stay in the order in which they came about; defining a table that was implied
moves it to the end.
-/
import BraceTemplate.Toml

namespace BraceTemplate.Toml

set_option autoImplicit false

/-- How a table came about. -/
inductive Origin where
  /-- By a header of its own, or as the document. -/
  | header
  /-- By a header of a table inside it. -/
  | implied
  /-- By a dotted key. -/
  | dotted
  deriving DecidableEq, Repr

/-- What a key stands for in a document. -/
inductive Item where
  | value (v : Toml)
  | table (origin : Origin) (entries : List (String × Item))
  /-- Tables under one header in double brackets, the latest first. -/
  | tables (elements : List (List (String × Item)))

/-- The entries of a table. -/
abbrev Entries := List (String × Item)

namespace Entries

/-- Puts an item under a key, in place of the item that was there, or else at the end. -/
def put (entries : Entries) (key : String) (item : Item) : Entries :=
  match entries with
  | [] => [(key, item)]
  | (k, i) :: rest => if k = key then (key, item) :: rest else (k, i) :: put rest key item

/-- Changes the table at the end of a path; tables that are missing are made. A path of a dotted key
enters no table that a header defined. -/
def update (dotted : Bool) (origin : Origin) (entries : Entries) (path : List String)
    (change : Origin → Entries → Option Entries) : Option Entries :=
  match path with
  | [] => change origin entries
  | key :: path =>
      match Dict.find? entries key with
      | none =>
          let made := if dotted then .dotted else .implied
          (update dotted made [] path change).map fun inner =>
            entries.put key (.table made inner)
      | some (.value _) => none
      | some (.tables []) => none
      | some (.tables (last :: before)) =>
          (update dotted .header last path change).map fun inner =>
            entries.put key (.tables (inner :: before))
      | some (.table found inner) =>
          if dotted && found = .header then none
          else (update dotted found inner path change).map fun inner =>
            entries.put key (.table found inner)

/-- Sets a key in a table; dots in the key lead through tables that dotted keys made. -/
def set (path : List String) (key : String) (v : Toml) (origin : Origin) (entries : Entries) :
    Option Entries :=
  update true origin entries path fun origin entries =>
    if !path.isEmpty && origin ≠ .dotted then none
    else if Dict.contains entries key then none
    else some (entries.put key (.value v))

/-- Defines a table by its header. -/
def define (key : String) (entries : Entries) : Option Entries :=
  match Dict.find? entries key with
  | none => some (entries.put key (.table .header []))
  | some (.table .implied inner) =>
      some (Entries.put (Dict.erase entries key) key (.table .header inner))
  | _ => none

/-- Adds a table under a header in double brackets. -/
def append (key : String) (entries : Entries) : Option Entries :=
  match Dict.find? entries key with
  | none => some (entries.put key (.tables [[]]))
  | some (.tables elements) => some (entries.put key (.tables ([] :: elements)))
  | _ => none

end Entries

mutual

/-- The value of an item. -/
def Item.toToml : Item → Toml
  | .value v => v
  | .table _ entries => .table (entriesToToml entries)
  | .tables elements => .array (elementsToToml elements).reverse

/-- The values of entries. -/
def entriesToToml : List (String × Item) → List (String × Toml)
  | [] => []
  | (key, item) :: rest => (key, item.toToml) :: entriesToToml rest

/-- The tables of elements, in the same order. -/
def elementsToToml : List (List (String × Item)) → List Toml
  | [] => []
  | entries :: rest => .table (entriesToToml entries) :: elementsToToml rest

end

/-- A document and the path of the table that keys are set in. -/
structure Document where
  root : Entries
  current : List String

namespace Document

/-- An empty document. -/
def empty : Document := ⟨[], []⟩

/-- The last part of a path and those before it. -/
def splitLast : List String → Option (List String × String)
  | [] => none
  | [key] => some ([], key)
  | part :: rest => (splitLast rest).map fun (parts, key) => (part :: parts, key)

/-- Sets a key, given by its parts, in the current table. -/
def set? (d : Document) (key : List String) (v : Toml) : Option Document :=
  match splitLast key with
  | none => none
  | some (path, key) =>
      (d.root.update false .header d.current (Entries.set path key v)).map fun root =>
        { d with root }

/-- Opens the table with a header. -/
def open? (d : Document) (header : List String) : Option Document :=
  match splitLast header with
  | none => none
  | some (path, key) =>
      (d.root.update false .header path fun _ => Entries.define key).map fun root =>
        ⟨root, header⟩

/-- Opens a new table with a header in double brackets. -/
def append? (d : Document) (header : List String) : Option Document :=
  match splitLast header with
  | none => none
  | some (path, key) =>
      (d.root.update false .header path fun _ => Entries.append key).map fun root =>
        ⟨root, header⟩

end Document

/-- The table of a braced list of keys and values. -/
def inlineTable? (pairs : List (List String × Toml)) : Option Toml :=
  let root := pairs.foldlM (fun entries (key, v) =>
    match Document.splitLast key with
    | none => none
    | some (path, key) => Entries.set path key v .header entries) []
  root.map fun entries => .table (entriesToToml entries)

end BraceTemplate.Toml
