import LowerComments.Toml.Scan
import LowerComments.Toml.Value

/-!
# Numbers of a TOML document

Digits may be set apart by single underscores, each between two digits. A decimal
number has no leading zeros. A fraction or an exponent makes it a floating-point
number; otherwise it is an integer of 64 bits. Integers are also written in
hexadecimal, octal and binary digits behind a prefix of their own, without a sign.
A floating-point number that is too large is refused when it is positive, and is
infinite when it is negative.
-/

set_option autoImplicit false

namespace LowerComments.Toml

/-- Digits in some base with single underscores between them. The flag tells that an underscore
has just been read, so that a digit has to follow. -/
def digitsAfter (isBaseDigit : Char → Bool) : Bool → List Char → Scanned (List Char)
  | awaited, [] => if awaited then none else some ([], [])
  | awaited, letter :: rest =>
    if isBaseDigit letter then (digitsAfter isBaseDigit false rest).push letter
    else if awaited then none
    else if letter = '_' then digitsAfter isBaseDigit true rest
    else some ([], letter :: rest)

/-- One or more digits in some base, with single underscores between them. -/
def digits? (isBaseDigit : Char → Bool) (text : List Char) : Scanned (List Char) :=
  digitsAfter isBaseDigit true text

/-- The digits of a decimal number in front of its point: one zero, or digits that start with
another one. -/
def wholeDigits? : List Char → Scanned (List Char)
  | '0' :: rest => some (['0'], rest)
  | text => digits? isDigit text

/-- The number that digits stand for. -/
def numberOf (base : Nat) (digits : List Char) : Nat :=
  digits.foldl (fun number letter => number * base + (digit? letter).getD 0) 0

/-- An optional sign, and whether it is a minus. -/
def sign? : List Char → Option Char × List Char
  | '+' :: rest => (some '+', rest)
  | '-' :: rest => (some '-', rest)
  | text => (none, text)

/-- The exponent of a floating-point number, whose letter has been read. -/
def exponent? (text : List Char) : Scanned Int :=
  let (sign, unsigned) := sign? text
  (digits? isDigit unsigned).map fun (found, rest) =>
    let number := Int.ofNat (numberOf 10 found)
    (if sign = some '-' then -number else number, rest)

/-- Integers are less than this, and not less than its negation. -/
def integerBound : Int := 0x8000000000000000

/-- An integer, when it has 64 bits. -/
def integer? (number : Int) (rest : List Char) : Scanned Value :=
  if -integerBound ≤ number ∧ number < integerBound then some (.integer number, rest) else none

/-- A floating-point number of these digits and this exponent, unless it is too large. -/
def float? (negative : Bool) (digits : List Char) (exponent : Int) (rest : List Char) :
    Scanned Value :=
  match Decimal.nearest negative (numberOf 10 digits) exponent with
  | .infinite false => none
  | number => some (.float number, rest)

/-- What follows the digits in front of the point, for a decimal number. -/
def decimalRest? (negative : Bool) (whole : List Char) : List Char → Scanned Value
  | '.' :: rest =>
    match digits? isDigit rest with
    | none => none
    | some (fraction, behind) =>
      let digits := whole ++ fraction
      let places := Int.ofNat fraction.length
      match behind with
      | letter :: others =>
        if letter = 'e' ∨ letter = 'E' then
          (exponent? others).bind fun (exponent, rest) =>
            float? negative digits (exponent - places) rest
        else float? negative digits (-places) behind
      | [] => float? negative digits (-places) behind
  | letter :: others =>
    if letter = 'e' ∨ letter = 'E' then
      (exponent? others).bind fun (exponent, rest) => float? negative whole exponent rest
    else
      let number := Int.ofNat (numberOf 10 whole)
      integer? (if negative then -number else number) (letter :: others)
  | [] =>
    let number := Int.ofNat (numberOf 10 whole)
    integer? (if negative then -number else number) []

/-- The digits of an integer behind the prefix of its base. -/
def basedInteger? (base : Nat) (text : List Char) : Scanned Value :=
  (digits? (fun letter => (digit? letter).any fun value => value < base) text).bind
    fun (found, rest) => integer? (Int.ofNat (numberOf base found)) rest

/-- The numbers that are written as words. -/
def namedNumber? (negative : Bool) (text : List Char) : Scanned Value :=
  match word? ['i', 'n', 'f'] text, word? ['n', 'a', 'n'] text with
  | some rest, _ => some (.float (.infinite negative), rest)
  | none, some rest => some (.float .notNumber, rest)
  | none, none => none

/-- A number. -/
def number? (text : List Char) : Scanned Value :=
  match text with
  | '0' :: 'x' :: rest => basedInteger? 16 rest
  | '0' :: 'o' :: rest => basedInteger? 8 rest
  | '0' :: 'b' :: rest => basedInteger? 2 rest
  | _ =>
    let (sign, unsigned) := sign? text
    let negative : Bool := sign = some '-'
    match namedNumber? negative unsigned with
    | some found => some found
    | none =>
      (wholeDigits? unsigned).bind fun (whole, rest) => decimalRest? negative whole rest

end LowerComments.Toml
