import LowerComments.Toml.Draft
import LowerComments.Toml.Key
import LowerComments.Toml.Moment
import LowerComments.Toml.Number

/-!
# Values as they are written

A value is a scalar, an array in square brackets or a table in braces. The elements
of an array may be set apart by line ends and comments and may end in a comma. A
table in braces stands on one line, and no comma follows its last entry. Arrays and
tables in braces are nested up to a limit.

The scanners for arrays and tables take the scanner for their elements, which has
one level less to go. Their loops end because each round takes a comma.
-/

set_option autoImplicit false

namespace LowerComments.Toml

/-- Arrays and tables in braces are nested no deeper than this. -/
def nestingLimit : Nat := 79

/-- A value that holds no others. -/
def scalar? (text : List Char) : Scanned Value :=
  match text with
  | '"' :: rest => (string? '"' rest).map fun (found, rest) => (.string found, rest)
  | '\'' :: rest => (string? '\'' rest).map fun (found, rest) => (.string found, rest)
  | _ =>
    match word? ['t', 'r', 'u', 'e'] text, word? ['f', 'a', 'l', 's', 'e'] text with
    | some rest, _ => some (.boolean true, rest)
    | none, some rest => some (.boolean false, rest)
    | none, none =>
      match moment text with
      | .found rest => some (.moment, rest)
      | .wrong => none
      | .absent => number? text

/-- The elements of an array and its closing bracket, in so many rounds at most. -/
def elements? (element : List Char → Scanned Value) : Nat → List Char → Scanned (List Value)
  | 0, _ => none
  | rounds + 1, text =>
    match skipTrivia false text with
    | ']' :: rest => some ([], rest)
    | start =>
      (element start).bind fun (value, rest) =>
        match skipTrivia false rest with
        | ',' :: others =>
          (elements? element rounds others).map fun (values, rest) => (value :: values, rest)
        | ']' :: others => some ([value], others)
        | _ => none

/-- A key, an equals sign and a value, and the blanks around the value. -/
def pair? (element : List Char → Scanned Value) (text : List Char) :
    Scanned (List String × Value) :=
  (key? text).bind fun (key, rest) =>
    match rest with
    | '=' :: others =>
      (element (skipBlanks others)).map fun (value, rest) => ((key, value), skipBlanks rest)
    | _ => none

/-- The entries of a table in braces and its closing brace, in so many rounds at most. -/
def pairs? (element : List Char → Scanned Value) :
    Nat → List Char → Scanned (List (List String × Value))
  | 0, _ => none
  | rounds + 1, text =>
    (pair? element text).bind fun (pair, rest) =>
      match rest with
      | ',' :: others =>
        (pairs? element rounds others).map fun (pairs, rest) => (pair :: pairs, rest)
      | '\x7d' :: others => some ([pair], others)
      | _ => none

/-- An array whose opening bracket has been read. -/
def array? (element : List Char → Scanned Value) (text : List Char) : Scanned Value :=
  (elements? element (text.length + 1) text).map fun (values, rest) => (.array values, rest)

/-- A table whose opening brace has been read. -/
def bracedTable? (element : List Char → Scanned Value) (text : List Char) : Scanned Value :=
  match skipBlanks text with
  | '\x7d' :: rest => some (.table [], rest)
  | _ =>
    (pairs? element (text.length + 1) text).bind fun (pairs, rest) =>
      (Drafts.addKeys [] pairs).map fun entries => (.table (Drafts.close entries), rest)

/-- A value in which arrays and tables in braces are nested up to so many levels. -/
def value? : Nat → List Char → Scanned Value
  | _ + 1, [] => none
  | 0, text => scalar? text
  | levels + 1, letter :: rest =>
    if letter = '[' then array? (value? levels) rest
    else if letter = '\x7b' then bracedTable? (value? levels) rest
    else scalar? (letter :: rest)

end LowerComments.Toml
