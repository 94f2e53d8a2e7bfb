import LowerComments.Toml.Text

/-!
# Keys of a TOML document

A key is a list of names with points between them, and blanks around each name and
around the points. A name is written bare, when it consists of letters of ASCII,
digits, hyphens and underscores, or as a string on one line. A key of very many
names is refused.
-/

set_option autoImplicit false

namespace LowerComments.Toml

/-- A key has fewer names than this. -/
def keyLimit : Nat := 80

/-- A character of a name that is written bare. -/
def isBare (letter : Char) : Bool :=
  letter.isAlphanum || letter = '-' || letter = '_'

/-- A name of a key. -/
def name? : List Char → Scanned String
  | [] => none
  | letter :: rest =>
    if letter = '"' ∨ letter = '\'' then lineString? letter rest
    else if isBare letter then
      some (String.ofList (letter :: rest.takeWhile isBare), rest.dropWhile isBare)
    else none

/-- The names of a key, at most so many of them. -/
def names? : Nat → List Char → Scanned (List String)
  | 0, _ => none
  | more + 1, text =>
    (name? (skipBlanks text)).bind fun (name, rest) =>
      match skipBlanks rest with
      | '.' :: others => (names? more others).map fun (names, rest) => (name :: names, rest)
      | behind => some ([name], behind)

/-- A key with the blanks around it. -/
def key? (text : List Char) : Scanned (List String) :=
  names? (keyLimit - 1) text

end LowerComments.Toml
