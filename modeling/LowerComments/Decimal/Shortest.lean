import LowerComments.Decimal.Binary

/-!
# The shortest decimal form of a binary number

A binary number stands for all the real numbers that are nearer to it than to its
neighbours, and for those halfway when its significand is even. Its shortest
decimal form is the number in that interval with the fewest digits, and of those
the nearest to the binary number itself, or the greater one of two that are equally
near.

For each count of digits the decimal numbers form a grid, and only the two grid
points around the binary number can be the nearest in the interval. `shortest`
tries the counts in ascending order. The form is then written in positional
notation, whatever its exponent, with a point and at least one digit on either
side of it.
-/

set_option autoImplicit false

namespace LowerComments.Decimal

/-- A positive number and the ends of its interval, all over one denominator. -/
structure Interval where
  value : Nat
  low : Nat
  high : Nat
  denominator : Nat
  /-- The ends belong to the interval. -/
  closed : Bool

/-- The interval of a positive binary number. The gap below a power of two is half as wide as
the one above it, unless the exponent is the least one. -/
def interval (significand : Nat) (exponent : Int) : Interval :=
  let quarter := exponent - 2
  let numerator (quarters : Nat) : Nat := (scaled quarters 2 quarter).1
  let narrow := significand = leastFullSignificand ∧ leastExponent < exponent
  { value := numerator (4 * significand)
    low := numerator (4 * significand - if narrow then 1 else 2)
    high := numerator (4 * significand + 2)
    denominator := (scaled 1 2 quarter).2
    closed := significand % 2 = 0 }

/-- The decimal number `digits * 10 ^ exponent` lies in the interval. -/
def Interval.has (interval : Interval) (digits : Nat) (exponent : Int) : Bool :=
  let (numerator, denominator) := scaled digits 10 exponent
  let point := numerator * interval.denominator
  let low := interval.low * denominator
  let high := interval.high * denominator
  if interval.closed then low ≤ point && point ≤ high else low < point && point < high

/-- Twice how far `digits * 10 ^ exponent` lies from the value, on a common scale. -/
def Interval.distance (interval : Interval) (digits : Nat) (exponent : Int) : Nat :=
  let (numerator, denominator) := scaled digits 10 exponent
  let point := numerator * interval.denominator
  let value := interval.value * denominator
  (point - value) + (value - point)

/-- The greatest multiple of a power of ten not above the value. -/
def Interval.floor (interval : Interval) (exponent : Int) : Nat :=
  let (numerator, denominator) := scaled 1 10 exponent
  interval.value * denominator / (interval.denominator * numerator)

/-- Raises a decimal exponent to that of the value's first digit. The search starts below it and
ends at it. -/
def Interval.climb (interval : Interval) : Nat → Int → Int
  | 0, exponent => exponent
  | steps + 1, exponent =>
    if interval.floor (exponent + 1) = 0 then exponent else interval.climb steps (exponent + 1)

/-- The decimal exponent of the value's first digit. -/
def Interval.leadingExponent (interval : Interval) : Int :=
  interval.climb 640 (-325)

/-- Tries the two grid points around the value, for more and more digits. -/
def Interval.search (interval : Interval) (leading : Int) : Nat → Nat → Nat × Int
  | 0, count => (interval.floor (leading - Int.ofNat count), leading - Int.ofNat count)
  | tries + 1, count =>
    let exponent := leading - Int.ofNat count
    let below := interval.floor exponent
    let takesBelow := interval.has below exponent
    let takesAbove := interval.has (below + 1) exponent
    if takesBelow && takesAbove then
      if interval.distance below exponent < interval.distance (below + 1) exponent then
        (below, exponent)
      else (below + 1, exponent)
    else if takesBelow then (below, exponent)
    else if takesAbove then (below + 1, exponent)
    else interval.search leading tries (count + 1)

/-- The shortest decimal form of a positive binary number, as digits and an exponent of ten. The
digits end in a zero only where one digit was rounded up to ten. -/
def shortest (significand : Nat) (exponent : Int) : Nat × Int :=
  let around := interval significand exponent
  let (digits, power) := around.search around.leadingExponent 17 0
  if digits % 10 = 0 then (digits / 10, power + 1) else (digits, power)

/-- Digits times a power of ten in positional notation, with a point in it. -/
def positional (digits : Nat) (exponent : Int) : String :=
  if 0 ≤ exponent then toString (digits * Nat.pow 10 exponent.toNat) ++ ".0"
  else
    let places := (-exponent).toNat
    let unit := Nat.pow 10 places
    let fraction := Nat.toDigits 10 (digits % unit)
    toString (digits / unit) ++ "." ++
      String.ofList (List.replicate (places - fraction.length) '0' ++ fraction)

/-- A binary number in words. -/
def Binary.display : Binary → String
  | .notNumber => "NaN"
  | .infinite negative => if negative then "-inf" else "inf"
  | .finite negative significand exponent =>
    let sign := if negative then "-" else ""
    if significand = 0 then sign ++ "0.0"
    else
      let (digits, power) := shortest significand exponent
      sign ++ positional digits power

end LowerComments.Decimal
