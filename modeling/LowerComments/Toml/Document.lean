import LowerComments.Toml.Element

/-!
# TOML documents

A document is a table, written line by line. A line gives a value to a key, or it
is the header of a section: a name in square brackets opens a table, and a name in
double brackets opens one more table of an array. The values behind a header belong
to its table, those in front of the first header to the document itself. Empty
lines and comments may stand anywhere between.

Reading has two steps. The scanner finds the sections with their keys and values,
and then the sections are put together to one table. Either step may find that the
text is no document.
-/

set_option autoImplicit false

namespace LowerComments.Toml

/-- A key with the value that a line gives to it. -/
abbrev Pair := List String × Value

/-- A header and the lines behind it. -/
structure Section where
  /-- The names in the header. -/
  path : List String
  /-- The header has double brackets. -/
  isElement : Bool
  pairs : List Pair

/-- A document: the lines in front of the first header, and its sections. -/
structure Document where
  pairs : List Pair
  sections : List Section

namespace Document

/-- A line gives this value to a key, or it is a header. -/
inductive Line where
  | pair (pair : Pair)
  | header (path : List String) (isElement : Bool)

/-- The rest of a header whose opening brackets have been read. -/
def header? (closing : List Char) (isElement : Bool) (text : List Char) : Scanned Line :=
  (key? text).bind fun (path, rest) =>
    (word? closing rest).map fun rest => (.header path isElement, rest)

/-- A line that is not empty, without its end. -/
def lineStart? (text : List Char) : Scanned Line :=
  match word? ['[', '['] text, word? ['['] text with
  | some rest, _ => header? [']', ']'] true rest
  | none, some rest => header? [']'] false rest
  | none, none => (pair? (value? nestingLimit) text).map fun (pair, rest) => (.pair pair, rest)

/-- A line that is not empty. -/
def line? (text : List Char) : Scanned Line :=
  (lineStart? text).bind fun (line, rest) => (lineEnd? rest).map fun rest => (line, rest)

/-- The lines of a text that are not empty. A text has fewer lines than characters, which bounds
the rounds. -/
def lines? : Nat → List Char → Option (List Line)
  | 0, text => if text = [] then some [] else none
  | rounds + 1, text =>
    match skipBlanks text with
    | [] => some []
    | start =>
      match lineEnd? start with
      | some rest => lines? rounds rest
      | none => (line? start).bind fun (line, rest) => (lines? rounds rest).map (line :: ·)

/-- Puts a line in front of a document. -/
def push (line : Line) (document : Document) : Document :=
  match line with
  | .pair pair => { document with pairs := pair :: document.pairs }
  | .header path isElement =>
    { pairs := [], sections := ⟨path, isElement, document.pairs⟩ :: document.sections }

/-- The document that consists of these lines. -/
def ofLines (lines : List Line) : Document :=
  lines.foldr push ⟨[], []⟩

/-- Adds a section to the tables in the making. -/
def addSection (entries : Drafts) (part : Section) : Option Drafts :=
  match part.path.getLast? with
  | none => none
  | some name =>
    entries.within .passed
      (fun _ inner =>
        if part.isElement then inner.addElement name part.pairs
        else inner.addTable name part.pairs)
      .header part.path.dropLast

/-- The table that a document describes. -/
def table? (document : Document) : Option Table := do
  let start ← Drafts.addKeys [] document.pairs
  let entries ← document.sections.foldlM addSection start
  some (Drafts.close entries)

/-- The character that may stand in front of a document without being a part of it. -/
def byteOrderMark : Char := '\uFEFF'

/-- The table that a text describes. -/
def read? (text : List Char) : Option Table := do
  let text := if text.head? = some byteOrderMark then text.tail else text
  let lines ← lines? text.length text
  (ofLines lines).table?

end Document

end LowerComments.Toml
