/-!
# Binary floating-point numbers

A number in decimal notation is read as the nearest binary number with a
significand of 53 bits. The exponent of the significand's last bit is at least
-1074, so that small numbers have fewer bits, and numbers from 2^1024 on do not
exist: a decimal number that rounds to one is infinite. Of two binary numbers
equally near, the one with the even significand is taken.

All arithmetic is on natural numbers, so that rounding is exact by construction.
-/

set_option autoImplicit false

namespace LowerComments.Decimal

/-- A binary floating-point number. -/
inductive Binary where
  | notNumber
  | infinite (negative : Bool)
  /-- The number `significand * 2 ^ exponent`, negated or not. -/
  | finite (negative : Bool) (significand : Nat) (exponent : Int)
  deriving DecidableEq, Repr

/-- The number of bits in a significand. -/
def significandBits : Nat := 53

/-- The least exponent of a significand's last bit. -/
def leastExponent : Int := -1074

/-- The least significand with all its bits. Only numbers with the least exponent have less. -/
def leastFullSignificand : Nat := Nat.pow 2 (significandBits - 1)

/-- The exponent of the first power of two that is too large. -/
def overflowExponent : Nat := 1024

/-- A quotient of natural numbers, rounded to the nearest and of two nearest to the even one. -/
def roundDivide (numerator denominator : Nat) : Nat :=
  let quotient := numerator / denominator
  let twice := 2 * (numerator % denominator)
  if twice < denominator then quotient
  else if denominator < twice then quotient + 1
  else if quotient % 2 = 0 then quotient else quotient + 1

/-- A numerator and a denominator of `number * base ^ exponent`. -/
def scaled (number base : Nat) (exponent : Int) : Nat × Nat :=
  if 0 ≤ exponent then (number * Nat.pow base exponent.toNat, 1)
  else (number, Nat.pow base (-exponent).toNat)

/-- A positive quotient divided by a power of two. -/
def scaleDown (numerator denominator : Nat) (exponent : Int) : Nat × Nat :=
  if 0 ≤ exponent then (numerator, denominator * Nat.pow 2 exponent.toNat)
  else (numerator * Nat.pow 2 (-exponent).toNat, denominator)

/-- The exponent of the greatest power of two not above a positive quotient. -/
def binaryLogarithm (numerator denominator : Nat) : Int :=
  let guess : Int := Int.ofNat numerator.log2 - Int.ofNat denominator.log2
  let (above, below) := scaleDown numerator denominator guess
  if below ≤ above then guess else guess - 1

/-- The nearest binary number to a positive quotient. -/
def nearestToQuotient (negative : Bool) (numerator denominator : Nat) : Binary :=
  let exponent :=
    max leastExponent (binaryLogarithm numerator denominator - Int.ofNat (significandBits - 1))
  let (above, below) := scaleDown numerator denominator exponent
  let significand := roundDivide above below
  if Int.ofNat overflowExponent ≤ Int.ofNat significand.log2 + exponent then .infinite negative
  else if significand = 2 * leastFullSignificand then
    .finite negative leastFullSignificand (exponent + 1)
  else .finite negative significand exponent

/-- The number of decimal digits of a natural number. -/
def digitCount (number : Nat) : Nat :=
  (Nat.toDigits 10 number).length

/-- The nearest binary number to `digits * 10 ^ exponent`. Numbers whose decimal exponent alone
shows them to be too large or too small are decided by it. -/
def nearest (negative : Bool) (digits : Nat) (exponent : Int) : Binary :=
  let magnitude := Int.ofNat (digitCount digits) + exponent
  if digits = 0 ∨ magnitude < -330 then .finite negative 0 leastExponent
  else if 320 < magnitude then .infinite negative
  else
    let (numerator, denominator) := scaled digits 10 exponent
    nearestToQuotient negative numerator denominator

end LowerComments.Decimal
