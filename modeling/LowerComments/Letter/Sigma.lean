import LowerComments.Letter.Cased
import LowerComments.Letter.Ignorable

/-!
# The two small sigmas

A capital sigma is written `ς` in lower case at the end of a word and `σ`
everywhere else. The end of a word is told by the nearest neighbours on either
side that are not case-ignorable: there is a cased one before the sigma, and
there is no cased one after it. The rule looks arbitrarily far in both
directions, but only across case-ignorable characters.

The text before the sigma is given from the sigma backwards, so that the nearest
character is the head of the list on both sides.
-/

set_option autoImplicit false

namespace LowerComments.Letter

/-- The capital letter with two lower-case forms. -/
def capitalSigma : Char := 'Σ'

/-- The lower-case form inside a word and for a sigma by itself. -/
def smallSigma : Char := 'σ'

/-- The lower-case form at the end of a word. -/
def finalSigma : Char := 'ς'

/-- The nearest character that is not case-ignorable, seen from the head of the list. -/
def nearest? (side : List Char) : Option Char :=
  side.find? fun letter => !isIgnorable letter

/-- The nearest character that is not case-ignorable exists and is cased. -/
def facesCased (side : List Char) : Bool :=
  (nearest? side).any isCased

/-- A word ends between the two sides. -/
def endsWord (before after : List Char) : Bool :=
  facesCased before && !facesCased after

/-- The lower-case form of a capital sigma between the two sides. -/
def sigmaBetween (before after : List Char) : Char :=
  if endsWord before after then finalSigma else smallSigma

end LowerComments.Letter
