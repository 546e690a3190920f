/-
Lexeme.Toml.Moment — the dates and times of a TOML document.

A date may be followed by a time, and that by an offset; a time may also stand
alone. Each part must be in its range, the day in that of its month.
-/
import Lexeme.Toml.Number

namespace Lexeme.Toml

/-- What is left behind a character. -/
def expect? (c : Char) : List Char → Option (List Char)
  | d :: cs => if c == d then some cs else none
  | [] => none

/-- Two digits within bounds. -/
def twoDigits (least most : Nat) : Reader Nat := fun cs => do
  let (n, rest) ← fixedDigits 2 0 cs
  if least ≤ n ∧ n ≤ most then some (n, rest) else none

/-- Whether a year has a 29th of February. -/
def isLeap (year : Nat) : Bool :=
  year % 4 == 0 && (year % 100 != 0 || year % 400 == 0)

/-- The number of days of a month. -/
def daysIn (year month : Nat) : Nat :=
  if month == 2 then (if isLeap year then 29 else 28)
  else if month == 4 || month == 6 || month == 9 || month == 11 then 30
  else 31

/-- What is left behind a date. -/
def date? (cs : List Char) : Option (List Char) := do
  let (year, cs) ← fixedDigits 4 0 cs
  let (month, cs) ← twoDigits 1 12 (← expect? '-' cs)
  let (_, cs) ← twoDigits 1 (daysIn year month) (← expect? '-' cs)
  some cs

/-- What is left behind the fraction of a second, if one starts here. -/
def secondFraction? : List Char → Option (List Char)
  | '.' :: c :: cs => if c.isDigit then some (cs.dropWhile Char.isDigit) else none
  | '.' :: [] => none
  | cs => some cs

/-- What is left behind a time. A minute may have a leap second. -/
def time? (cs : List Char) : Option (List Char) := do
  let (_, cs) ← twoDigits 0 23 cs
  let (_, cs) ← twoDigits 0 59 (← expect? ':' cs)
  let (_, cs) ← twoDigits 0 60 (← expect? ':' cs)
  secondFraction? cs

/-- What is left behind the offset of a time, if one starts here. -/
def offset? : List Char → Option (List Char)
  | [] => some []
  | c :: cs =>
    if c == 'Z' || c == 'z' then some cs
    else if c == '+' || c == '-' then do
      let (_, cs) ← twoDigits 0 23 cs
      let (_, cs) ← twoDigits 0 59 (← expect? ':' cs)
      some cs
    else some (c :: cs)

/-- What is left behind a time with or without an offset that follows a date, if one does. -/
def timeOfDay? : List Char → Option (List Char)
  | c :: cs =>
    if c == 'T' || c == 't' then (time? cs).bind offset?
    else if c == ' ' && cs.head?.any Char.isDigit then (time? cs).bind offset?
    else some (c :: cs)
  | [] => some []

/-- A date, a time or both. -/
def moment : Reader Item := fun cs =>
  let rest :=
    match date? cs with
    | some cs => timeOfDay? cs
    | none => time? cs
  rest.map fun rest => (.moment, rest)

end Lexeme.Toml
