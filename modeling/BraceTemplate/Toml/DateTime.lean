/-
# BraceTemplate.Toml.DateTime — dates and times

A date must exist in the calendar; a second may be the sixtieth. A fraction of a second keeps nine
digits, and an offset of minus zero is plus zero. A letter `T` or a space stands between a date and
a time.
-/
import BraceTemplate.Text.Name
import BraceTemplate.Toml

namespace BraceTemplate.Toml

set_option autoImplicit false

open Text

/-- A number of two digits within bounds. -/
def twoDigits? (low high : Nat) (a b : Char) : Option (List Char) :=
  if a.isDigit && b.isDigit then
    let n := valueOf [a, b]
    if low ≤ n ∧ n ≤ high then some [a, b] else none
  else none

/-- The number of days of a month. -/
def daysInMonth (year month : Nat) : Nat :=
  if month = 2 then
    if year % 4 = 0 ∧ (year % 100 ≠ 0 ∨ year % 400 = 0) then 29 else 28
  else if month = 4 ∨ month = 6 ∨ month = 9 ∨ month = 11 then 30
  else 31

/-- A date in front of a text, and the text after it. -/
def date? : List Char → Option (List Char × List Char)
  | y₁ :: y₂ :: y₃ :: y₄ :: '-' :: m₁ :: m₂ :: '-' :: d₁ :: d₂ :: rest =>
      let year := [y₁, y₂, y₃, y₄]
      if isDigits year then
        match twoDigits? 1 12 m₁ m₂ with
        | none => none
        | some month =>
            match twoDigits? 1 (daysInMonth (valueOf year) (valueOf month)) d₁ d₂ with
            | none => none
            | some day => some (year ++ '-' :: (month ++ '-' :: day), rest)
      else none
  | _ => none

/-- The digits of a fraction of a second as they are written: nine at most, without the zeros at
the end, and nothing if none is left. -/
def fractionChars (digits : List Char) : List Char :=
  let kept := ((digits.take 9).reverse.dropWhile (· == '0')).reverse
  if kept.isEmpty then [] else '.' :: kept

/-- A fraction of a second in front of a text, and the text after it. -/
def fraction? : List Char → Option (List Char × List Char)
  | '.' :: rest =>
      let digits := rest.takeWhile Char.isDigit
      if digits.isEmpty then none
      else some (fractionChars digits, rest.dropWhile Char.isDigit)
  | rest => some ([], rest)

/-- A time in front of a text, and the text after it. -/
def time? : List Char → Option (List Char × List Char)
  | h₁ :: h₂ :: ':' :: m₁ :: m₂ :: ':' :: s₁ :: s₂ :: rest =>
      match twoDigits? 0 23 h₁ h₂, twoDigits? 0 59 m₁ m₂, twoDigits? 0 60 s₁ s₂,
          fraction? rest with
      | some hour, some minute, some second, some (fraction, rest) =>
          some (hour ++ ':' :: (minute ++ ':' :: (second ++ fraction)), rest)
      | _, _, _, _ => none
  | _ => none

/-- An offset that makes up a text; the empty text is no offset. -/
def offset? : List Char → Option (List Char)
  | [] => some []
  | ['Z'] | ['z'] => some ['Z']
  | [sign, h₁, h₂, ':', m₁, m₂] =>
      if sign == '+' || sign == '-' then
        match twoDigits? 0 23 h₁ h₂, twoDigits? 0 59 m₁ m₂ with
        | some hour, some minute =>
            let sign := if valueOf hour = 0 ∧ valueOf minute = 0 then '+' else sign
            some (sign :: (hour ++ ':' :: minute))
        | _, _ => none
      else none
  | _ => none

/-- A date, a date with a time and perhaps an offset, or a time. -/
def dateTime? (s : List Char) : Option Toml :=
  match date? s with
  | some (date, []) => some (.dateTime (String.ofList date))
  | some (date, delimiter :: rest) =>
      if delimiter == 'T' || delimiter == 't' || delimiter == ' ' then
        match time? rest with
        | none => none
        | some (time, rest) =>
            (offset? rest).map fun offset =>
              .dateTime (String.ofList (date ++ 'T' :: (time ++ offset)))
      else none
  | none =>
      match time? s with
      | some (time, []) => some (.dateTime (String.ofList time))
      | _ => none

end BraceTemplate.Toml
