import LowerComments.Toml.Scan

/-!
# Dates and times of a TOML document

A date has a year of four digits, a month and a day of the month, in the calendar
that drops three leap days in four centuries. A time has an hour, a minute and a
second, which may be a leap second, and perhaps a fraction of a second. The two are
joined by a letter or a space, and a time that follows a date may end in its offset
from universal time.

The scanners answer the text behind a moment, since nothing is done with the moment
itself.
-/

set_option autoImplicit false

namespace LowerComments.Toml

/-- A number of exactly that many digits. -/
def fixedNumber? : Nat → List Char → Scanned Nat
  | 0, text => some (0, text)
  | _ + 1, [] => none
  | count + 1, letter :: rest =>
    if isDigit letter then
      (fixedNumber? count rest).map fun (number, rest) =>
        ((letter.toNat - '0'.toNat) * 10 ^ count + number, rest)
    else none

/-- A number of two digits within bounds. -/
def twoDigits? (low high : Nat) (text : List Char) : Scanned Nat :=
  (fixedNumber? 2 text).bind fun (number, rest) =>
    if low ≤ number ∧ number ≤ high then some (number, rest) else none

/-- The year has a leap day. -/
def isLeapYear (year : Nat) : Bool :=
  year % 4 = 0 && (year % 100 ≠ 0 || year % 400 = 0)

/-- The number of days in a month. -/
def daysInMonth (year month : Nat) : Nat :=
  if month = 2 then if isLeapYear year then 29 else 28
  else if month = 4 ∨ month = 6 ∨ month = 9 ∨ month = 11 then 30
  else 31

/-- The text behind the month and the day of a date of that year. -/
def monthAndDay? (year : Nat) (text : List Char) : Option (List Char) := do
  let (month, rest) ← twoDigits? 1 12 text
  let rest ← word? ['-'] rest
  let (day, rest) ← twoDigits? 1 31 rest
  if day ≤ daysInMonth year month then some rest else none

/-- The text without a fraction of a second at its front. -/
def fraction? : List Char → Option (List Char)
  | '.' :: letter :: rest => if isDigit letter then some (rest.dropWhile isDigit) else none
  | ['.'] => none
  | text => some text

/-- The text behind the minute, the second and the fraction of a time. -/
def minuteAndSecond? (text : List Char) : Option (List Char) := do
  let (_, rest) ← twoDigits? 0 59 text
  let rest ← word? [':'] rest
  let (_, rest) ← twoDigits? 0 60 rest
  fraction? rest

/-- The text behind the hour of a time and the colon that follows it. -/
def hour? (text : List Char) : Option (List Char) := do
  let (_, rest) ← twoDigits? 0 23 text
  word? [':'] rest

/-- The text behind an offset from universal time, if there is one. -/
def offset? : List Char → Option (List Char)
  | [] => some []
  | letter :: rest =>
    if letter = 'Z' ∨ letter = 'z' then some rest
    else if letter = '+' ∨ letter = '-' then
      (hour? rest).bind fun rest => (twoDigits? 0 59 rest).map Prod.snd
    else some (letter :: rest)

/-- What follows a date: a time with an offset or without, or nothing. Behind a date, an hour
and a colon the time has to be complete. -/
def timeOfDate? : List Char → Option (List Char)
  | [] => some []
  | letter :: rest =>
    if letter = 'T' ∨ letter = 't' ∨ letter = ' ' then
      match hour? rest with
      | none => some (letter :: rest)
      | some minute => (minuteAndSecond? minute).bind offset?
    else some (letter :: rest)

/-- What a text that may start with a date or a time turns out to be. -/
inductive MomentScan where
  /-- A date or a time, and the text behind it. -/
  | found (rest : List Char)
  /-- The start of one that is wrong. -/
  | wrong
  /-- Something else. -/
  | absent
  deriving DecidableEq, Repr

/-- The moment whose scan succeeded, or one that is wrong. -/
def MomentScan.ofOption : Option (List Char) → MomentScan
  | some rest => .found rest
  | none => .wrong

/-- A date or a time. Four digits and a hyphen start a date, and an hour with its colon starts
a time. -/
def moment (text : List Char) : MomentScan :=
  let year := fixedNumber? 4 text
  match year.bind fun (year, rest) => (word? ['-'] rest).map fun rest => (year, rest) with
  | some (year, rest) => .ofOption ((monthAndDay? year rest).bind timeOfDate?)
  | none =>
    match hour? text with
    | some rest => .ofOption (minuteAndSecond? rest)
    | none => .absent

end LowerComments.Toml
