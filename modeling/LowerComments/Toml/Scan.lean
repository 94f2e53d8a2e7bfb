/-!
# Blanks, line ends and comments

A scanner takes a text apart from its front. It answers what it found together
with the rest of the text, or nothing when the text does not start in the way that
it looks for.

A line ends in a line feed, with or without a carriage return before it. Blanks are
spaces and tabs. A comment starts with a number sign and reaches to the end of its
line. Control characters other than the tab stand nowhere.
-/

set_option autoImplicit false

namespace LowerComments.Toml

/-- What a scanner answers: what it found and the rest of the text. -/
abbrev Scanned (Found : Type) := Option (Found × List Char)

/-- Puts a character in front of the text that a scanner found. -/
def Scanned.push (letter : Char) : Scanned (List Char) → Scanned (List Char)
  | some (found, rest) => some (letter :: found, rest)
  | none => none

/-- A space or a tab. -/
def isBlank (letter : Char) : Bool :=
  letter = ' ' || letter = '\t'

/-- A character that may stand in a comment or, quotes and backslashes apart, in a string. -/
def isPlain (letter : Char) : Bool :=
  letter = '\t' || (' ' ≤ letter && letter ≤ '~') || '\x7f' < letter

/-- A decimal digit. -/
def isDigit (letter : Char) : Bool :=
  '0' ≤ letter && letter ≤ '9'

/-- The value of a digit, up to the sixteen hexadecimal ones. -/
def digit? (letter : Char) : Option Nat :=
  if isDigit letter then some (letter.toNat - '0'.toNat)
  else if 'a' ≤ letter && letter ≤ 'f' then some (letter.toNat - 'a'.toNat + 10)
  else if 'A' ≤ letter && letter ≤ 'F' then some (letter.toNat - 'A'.toNat + 10)
  else none

/-- The text without the blanks at its front. -/
def skipBlanks (text : List Char) : List Char :=
  text.dropWhile isBlank

/-- The text behind a line end at its front. -/
def newline? : List Char → Option (List Char)
  | '\n' :: rest => some rest
  | '\r' :: '\n' :: rest => some rest
  | _ => none

/-- The text without the comment at its front. -/
def skipComment : List Char → List Char
  | '#' :: rest => rest.dropWhile isPlain
  | text => text

/-- The text behind the blanks, the comment and the line end at its front. The end of the text
ends a line too. -/
def lineEnd? (text : List Char) : Option (List Char) :=
  match skipComment (skipBlanks text) with
  | [] => some []
  | rest => newline? rest

/-- The text without the blanks, comments and line ends at its front. The flag tells that the
front lies within a comment. -/
def skipTrivia : Bool → List Char → List Char
  | _, [] => []
  | inComment, letter :: rest =>
    if letter = '\n' then skipTrivia false rest
    else if letter = '\r' then
      if rest.head? = some '\n' then skipTrivia false rest else letter :: rest
    else if inComment then
      if isPlain letter then skipTrivia true rest else letter :: rest
    else if isBlank letter then skipTrivia false rest
    else if letter = '#' then skipTrivia true rest
    else letter :: rest

/-- The text behind a word at its front. -/
def word? : List Char → List Char → Option (List Char)
  | [], text => some text
  | _ :: _, [] => none
  | expected :: more, letter :: rest => if letter = expected then word? more rest else none

end LowerComments.Toml
