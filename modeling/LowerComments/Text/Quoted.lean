import LowerComments.Text.Invisible

/-!
# Quoted text in messages

A message shows a piece of text between double quotes. The quote and the
backslash are written behind a backslash, four control characters have a letter
of their own, and any other character that does not show by itself is written as
its code in hexadecimal digits.
-/

set_option autoImplicit false

namespace LowerComments.Text

/-- A character written as its code. -/
def escapedCode (letter : Char) : List Char :=
  ['\\', 'u', '{'] ++ Nat.toDigits 16 letter.toNat ++ ['}']

/-- A character as it stands between the quotes. -/
def quotedLetter (letter : Char) : List Char :=
  if letter = '\x00' then ['\\', '0']
  else if letter = '\t' then ['\\', 't']
  else if letter = '\r' then ['\\', 'r']
  else if letter = '\n' then ['\\', 'n']
  else if letter = '"' then ['\\', '"']
  else if letter = '\\' then ['\\', '\\']
  else if isInvisible letter then escapedCode letter
  else [letter]

/-- A text between quotes. -/
def quoted (text : String) : String :=
  String.ofList (['"'] ++ text.toList.flatMap quotedLetter ++ ['"'])

end LowerComments.Text
