import LowerComments.Toml.Scan

/-!
# Strings of a TOML document

A string stands between double quotes, where a backslash starts an escape, or
between single quotes, where every character stands for itself. Either kind is
written on one line between single delimiters or over several lines between
delimiters of three. A string of several lines drops a line end right behind its
opening delimiter, reads every line end as a line feed, and may end in one or two
quotes in front of its closing delimiter.

The body of a string is read one character at a time. What the characters before
have opened is the state of the reader: nothing, an escape, the digits of a code,
or a backslash at the end of a line, which drops everything up to the next visible
character.
-/

set_option autoImplicit false

namespace LowerComments.Toml

/-- What the characters before have opened. -/
inductive Opened where
  | nothing
  /-- A backslash has been read. -/
  | escape
  /-- So many hexadecimal digits are still to come, and the ones before make up this code. -/
  | code (remaining code : Nat)
  /-- A backslash and blanks have been read, and the line has to end. -/
  | lineBreak
  /-- The line has ended behind a backslash, and blanks and line ends are dropped. -/
  | margin
  deriving DecidableEq, Repr

/-- The character that an escape of one letter stands for. -/
def escaped? (letter : Char) : Option Char :=
  if letter = 'b' then some '\x08'
  else if letter = 't' then some '\t'
  else if letter = 'n' then some '\n'
  else if letter = 'f' then some '\x0c'
  else if letter = 'r' then some '\r'
  else if letter = '"' then some '"'
  else if letter = '\\' then some '\\'
  else none

/-- The character with a code. -/
def character? (code : Nat) : Option Char :=
  if code.isValidChar then some (Char.ofNat code) else none

/-- The quotes that belong to a string of several lines and the text behind its closing
delimiter, when the delimiter is at the front. -/
def closing? (quote : Char) : List Char → Scanned (List Char)
  | a :: b :: c :: rest =>
    if a = quote ∧ b = quote ∧ c = quote then
      match rest with
      | d :: e :: others =>
        if d = quote ∧ e = quote then some ([quote, quote], others)
        else if d = quote then some ([quote], e :: others)
        else some ([], rest)
      | [d] => if d = quote then some ([quote], []) else some ([], rest)
      | [] => some ([], rest)
    else none
  | _ => none

/-- The end of a string, when it is at the front. -/
def stringEnd? (severalLines : Bool) (quote : Char) (text : List Char) : Scanned (List Char) :=
  if severalLines then closing? quote text
  else match text with
    | letter :: rest => if letter = quote then some ([], rest) else none
    | [] => none

/-- The rest of a string in double quotes. -/
def quotedBody (severalLines : Bool) : Opened → List Char → Scanned (List Char)
  | _, [] => none
  | opened, letter :: rest =>
    match opened with
    | .escape =>
      match escaped? letter with
      | some meant => (quotedBody severalLines .nothing rest).push meant
      | none =>
        if letter = 'u' then quotedBody severalLines (.code 4 0) rest
        else if letter = 'U' then quotedBody severalLines (.code 8 0) rest
        else if severalLines && isBlank letter then quotedBody severalLines .lineBreak rest
        else if severalLines && letter = '\n' then quotedBody severalLines .margin rest
        else if severalLines && letter = '\r' && rest.head? = some '\n' then
          quotedBody severalLines .margin rest
        else none
    | .code remaining code =>
      match digit? letter with
      | none => none
      | some value =>
        let next := code * 16 + value
        match remaining with
        | 0 => none
        | 1 =>
          match character? next with
          | some meant => (quotedBody severalLines .nothing rest).push meant
          | none => none
        | more + 2 => quotedBody severalLines (.code (more + 1) next) rest
    | .lineBreak =>
      if isBlank letter then quotedBody severalLines .lineBreak rest
      else if letter = '\n' then quotedBody severalLines .margin rest
      else if letter = '\r' && rest.head? = some '\n' then
        quotedBody severalLines .lineBreak rest
      else none
    | .margin =>
      if isBlank letter || letter = '\n' then quotedBody severalLines .margin rest
      else if letter = '\r' && rest.head? = some '\n' then quotedBody severalLines .margin rest
      else if letter = '\\' then quotedBody severalLines .escape rest
      else if letter = '"' then
        match stringEnd? severalLines '"' (letter :: rest) with
        | some found => some found
        | none => (quotedBody severalLines .nothing rest).push letter
      else if isPlain letter then (quotedBody severalLines .nothing rest).push letter
      else none
    | .nothing =>
      if letter = '\\' then quotedBody severalLines .escape rest
      else if letter = '"' then
        match stringEnd? severalLines '"' (letter :: rest) with
        | some found => some found
        | none => (quotedBody severalLines .nothing rest).push letter
      else if severalLines && letter = '\n' then
        (quotedBody severalLines .nothing rest).push letter
      else if severalLines && letter = '\r' && rest.head? = some '\n' then
        quotedBody severalLines .nothing rest
      else if isPlain letter then (quotedBody severalLines .nothing rest).push letter
      else none

/-- The rest of a string in single quotes. -/
def literalBody (severalLines : Bool) : List Char → Scanned (List Char)
  | [] => none
  | letter :: rest =>
    if letter = '\'' then
      match stringEnd? severalLines '\'' (letter :: rest) with
      | some found => some found
      | none => (literalBody severalLines rest).push letter
    else if severalLines && letter = '\n' then (literalBody severalLines rest).push letter
    else if severalLines && letter = '\r' && rest.head? = some '\n' then
      literalBody severalLines rest
    else if isPlain letter then (literalBody severalLines rest).push letter
    else none

/-- The rest of a string of that quote. -/
def stringBody (severalLines : Bool) (quote : Char) (text : List Char) : Scanned (List Char) :=
  if quote = '"' then quotedBody severalLines .nothing text else literalBody severalLines text

/-- A string on one line whose opening quote has been read. -/
def lineString? (quote : Char) (text : List Char) : Scanned String :=
  (stringBody false quote text).map fun (found, rest) => (String.ofList found, rest)

/-- A string of either kind whose first quote has been read. -/
def string? (quote : Char) (text : List Char) : Scanned String :=
  match text with
  | a :: b :: rest =>
    if a = quote ∧ b = quote then
      (stringBody true quote ((newline? rest).getD rest)).map fun (found, rest) =>
        (String.ofList found, rest)
    else lineString? quote text
  | _ => lineString? quote text

end LowerComments.Toml
