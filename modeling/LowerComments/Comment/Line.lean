import LowerComments.Comment.Span

/-!
# Lower-casing the comment of one line

The first occurrence of the marker opens the comment, and the comment reaches to
the end of the line, its terminator included. The search is a plain search for
text: a marker inside a quoted string opens a comment too, and later markers
belong to the span. An empty marker occurs at the start of every line.

`lowerLine?` tells a line that changes from one that stands as it is, and
`lowerLine` answers the resulting line in both cases.
-/

set_option autoImplicit false

namespace LowerComments.Comment

/-- The text before the first occurrence of the marker, and the text from there on. -/
def splitAtMarker? (marker : List Char) : List Char → Option (List Char × List Char)
  | [] => if marker.isEmpty then some ([], []) else none
  | letter :: rest =>
    if marker.isPrefixOf (letter :: rest) then some ([], letter :: rest)
    else (splitAtMarker? marker rest).map fun (code, span) => (letter :: code, span)

/-- The line with its comment in lower case, when that differs from the line. -/
def lowerLine? (marker line : List Char) : Option (List Char) :=
  match splitAtMarker? marker line with
  | none => none
  | some (code, span) =>
    let lowered := lowerSpan span
    if lowered = span then none else some (code ++ lowered)

/-- The line with its comment in lower case. -/
def lowerLine (marker line : List Char) : List Char :=
  (lowerLine? marker line).getD line

end LowerComments.Comment
