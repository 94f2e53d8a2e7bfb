/-!
# Styled words

A report may set a few of its words in colour. A style is a colour and two
attributes, written as escape sequences in front of the word and one that ends
them behind it. A report without colour shows the bare words.
-/

set_option autoImplicit false

namespace LowerComments

/-- A colour for words in a report. -/
inductive Colour where
  | red
  | green
  deriving DecidableEq, Repr

/-- How a word is set. -/
structure Style where
  colour : Option Colour := none
  bold : Bool := false
  underlined : Bool := false
  deriving DecidableEq, Repr

/-- The escape sequence with a number. -/
def escapeSequence (number : Nat) : String :=
  "\x1b[" ++ toString number ++ "m"

/-- The number that selects a colour. -/
def Colour.number : Colour → Nat
  | .red => 31
  | .green => 32

namespace Style

/-- The numbers that select a style: the colour, then the attributes. -/
def numbers (style : Style) : List Nat :=
  (style.colour.map Colour.number).toList ++ (if style.bold then [1] else []) ++
    (if style.underlined then [4] else [])

/-- A word in a style, when styles are on. -/
def apply (style : Style) (styled : Bool) (word : String) : String :=
  if styled then
    String.join (style.numbers.map escapeSequence) ++ word ++ escapeSequence 0
  else word

/-- The style of words that tell of a success. -/
def success : Style := { colour := some .green }

/-- The style of words that end a run or draw attention. -/
def strongSuccess : Style := { colour := some .green, bold := true }

/-- The style of words that tell of a failure. -/
def failure : Style := { colour := some .red, bold := true }

/-- The style of a path that a note points out, and of a heading. -/
def emphasis : Style := { bold := true, underlined := true }

/-- The style of words that are typed as they stand. -/
def literal : Style := { bold := true }

end Style

end LowerComments
