/-!
# Sets of characters given by intervals of codes

A property of characters is recorded as the list of the maximal intervals of
codes that have it, both ends included and in ascending order.
-/

set_option autoImplicit false

namespace LowerComments.Letter

/-- Intervals of character codes, both ends included. -/
abbrev Intervals := List (Nat × Nat)

/-- A code belongs to a set of intervals when it lies in one of them. -/
def Intervals.has (intervals : Intervals) (code : Nat) : Bool :=
  intervals.any fun interval => interval.1 ≤ code && code ≤ interval.2

end LowerComments.Letter
