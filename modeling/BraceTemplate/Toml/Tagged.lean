/-
# BraceTemplate.Toml.Tagged — tables that stand for dates and times

A table whose first key is `dateTag` stands for a date or time: the text under that key gives it,
and the keys after it do not count. A tag that is not the first key, or is a key of the document
itself, is a key like any other.

`untagEntries?` puts dates and times in place of such tables and fails if a text gives none.
-/
import BraceTemplate.Toml.DateTime

namespace BraceTemplate.Toml

set_option autoImplicit false

/-- The key that makes a table a date or time. -/
def dateTag : String := "$__toml_private_datetime"

/-- The value under the tag of a table, if the first key is the tag. -/
def tagged? : List (String × Toml) → Option Toml
  | (key, v) :: _ => if key = dateTag then some v else none
  | [] => none

/-- The date or time that the value under a tag gives. -/
def quotedDateTime? : Toml → Option Toml
  | .string s => dateTime? s.toList
  | _ => none

mutual

/-- A value with dates and times in place of tagged tables. -/
def untag? : Toml → Option Toml
  | .array items => (untagItems? items).map .array
  | .table entries =>
      match tagged? entries with
      | some v => quotedDateTime? v
      | none => (untagEntries? entries).map .table
  | v => some v

/-- Items with dates and times in place of tagged tables. -/
def untagItems? : List Toml → Option (List Toml)
  | [] => some []
  | v :: rest =>
      match untag? v with
      | some v => (untagItems? rest).map (v :: ·)
      | none => none

/-- Entries with dates and times in place of the tagged tables among their values. -/
def untagEntries? : List (String × Toml) → Option (List (String × Toml))
  | [] => some []
  | (key, v) :: rest =>
      match untag? v with
      | some v => (untagEntries? rest).map ((key, v) :: ·)
      | none => none

end

end BraceTemplate.Toml
