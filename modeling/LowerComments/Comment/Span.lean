import LowerComments.Letter.Lower
import LowerComments.Letter.Sigma

/-!
# Lower-casing a span character by character

A span is the part of a line that a comment covers. Lower-casing keeps its
number of characters: a character with a single lower-case character takes
that one, a character whose lower-case form is longer stays as it is, and a
capital sigma takes the form that its place in a word asks for.

Only the span itself is looked at for the place of a sigma. What stands before
the span does not count, so a span that starts with a sigma starts a word.
-/

set_option autoImplicit false

namespace LowerComments.Comment

open LowerComments.Letter

/-- One character of a span, lower-cased between the characters before it, nearest first,
and the characters after it. -/
def lowerLetter (before : List Char) (letter : Char) (after : List Char) : Char :=
  if letter = capitalSigma then sigmaBetween before after
  else match lowerCase letter with
    | [lower] => lower
    | _ => letter

/-- Lower-casing the rest of a span, with the characters already passed in `before`,
nearest first. -/
def lowerFrom (before : List Char) : List Char → List Char
  | [] => []
  | letter :: after => lowerLetter before letter after :: lowerFrom (letter :: before) after

/-- A span in lower case, as long as the span. -/
def lowerSpan (span : List Char) : List Char :=
  lowerFrom [] span

end LowerComments.Comment
