import LowerComments.Comment.Line

/-!
# Lower-casing the comments of a text

A text is cut after every line feed, each line is lower-cased by itself, and the
lines are put together again. The last line may lack a line feed and keeps
lacking it. The result counts the lines and those among them that changed.
-/

set_option autoImplicit false

namespace LowerComments.Comment

/-- The lines of a text, each with its line feed; only the last one may lack it, and none
is empty. -/
def splitLines : List Char → List (List Char)
  | [] => []
  | letter :: rest =>
    if letter = '\n' then [letter] :: splitLines rest
    else match splitLines rest with
      | [] => [[letter]]
      | line :: lines => (letter :: line) :: lines

/-- A text with its comments in lower case, and the counts for a report. -/
structure Lowered where
  text : List Char
  lines : Nat
  changedLines : Nat
  deriving DecidableEq, Repr

/-- The text with every comment in lower case. -/
def lowerComments (marker text : List Char) : Lowered :=
  let lines := splitLines text
  { text := lines.flatMap (lowerLine marker)
    lines := lines.length
    changedLines := lines.countP fun line => (lowerLine? marker line).isSome }

end LowerComments.Comment
