import LowerComments.Toml.Value

/-!
# Tables in the making

The entries of a table may stand in several parts of a document. While the document
is read, its tables are drafts. A draft remembers how each table came about, since
this decides what may still be added to it:

* a table under a header of its own takes no further header and no dotted keys
  from outside;
* a table that only headers further down have passed through may still get a header;
* a table that dotted keys have made takes more of them.

A value, which includes tables and arrays in brackets, is finished from the start.
-/

set_option autoImplicit false

namespace LowerComments.Toml

/-- How a table came about. -/
inductive Origin where
  /-- It has a header of its own, or it is the whole document or a table in braces. -/
  | header
  /-- A header of a table further down names it on the way. -/
  | passed
  /-- A dotted key names it on the way. -/
  | dotted
  deriving DecidableEq, Repr

/-- What a key of a table in the making stands for. -/
inductive Draft where
  /-- A finished value. -/
  | closed (value : Value)
  /-- A table that may grow. -/
  | table (origin : Origin) (entries : List (String × Draft))
  /-- The tables under headers in double brackets. The last one may grow. -/
  | tables (earlier : List (List (String × Draft))) (last : List (String × Draft))

/-- The entries of a table in the making. -/
abbrev Drafts := List (String × Draft)

namespace Drafts

/-- The draft under a name. -/
def get? (entries : Drafts) (name : String) : Option Draft :=
  entries.lookup name

/-- The entries without the one of that name. -/
def erase (entries : Drafts) (name : String) : Drafts :=
  entries.filter fun entry => entry.1 ≠ name

/-- Changes the draft under a name where it stands, or adds one at the end. -/
def alter (name : String) (change : Option Draft → Option Draft) : Drafts → Option Drafts
  | [] => (change none).map fun draft => [(name, draft)]
  | entry :: rest =>
    if entry.1 = name then (change (some entry.2)).map fun draft => (name, draft) :: rest
    else (alter name change rest).map fun entries => entry :: entries

/-- Changes the entries of the table to which names lead. Tables that are missing on the way
come about in the given manner. `here` is how the present table came about. -/
def within (manner : Origin) (change : Origin → Drafts → Option Drafts) (here : Origin) :
    List String → Drafts → Option Drafts
  | [], entries => change here entries
  | name :: names, entries =>
    entries.alter name fun
      | none => (within manner change manner names []).map (Draft.table manner)
      | some (.closed _) => none
      | some (.table origin inner) =>
        if manner = .dotted ∧ origin = .header then none
        else (within manner change origin names inner).map (Draft.table origin)
      | some (.tables earlier last) =>
        (within manner change .header names last).map (Draft.tables earlier)

/-- Adds a value under a name that is not taken. -/
def add (entries : Drafts) (name : String) (value : Value) : Option Drafts :=
  entries.alter name fun
    | none => some (.closed value)
    | some _ => none

/-- Adds a value under a key. A key of several names ends in a table that such keys have made. -/
def addKey (entries : Drafts) (key : List String) (value : Value) : Option Drafts :=
  match key.getLast? with
  | none => none
  | some name =>
    entries.within .dotted
      (fun origin inner =>
        if origin = .dotted ∨ key.length = 1 then inner.add name value else none)
      .header key.dropLast

/-- Adds values under their keys, in order. -/
def addKeys (entries : Drafts) : List (List String × Value) → Option Drafts
  | [] => some entries
  | (key, value) :: rest => (entries.addKey key value).bind fun next => next.addKeys rest

/-- Adds a table under a header, at the end. The table has no header yet, and it keeps what
headers further down have put into it. -/
def addTable (entries : Drafts) (name : String) (pairs : List (List String × Value)) :
    Option Drafts :=
  let start := match entries.get? name with
    | none => some []
    | some (.table .passed inner) => some inner
    | some _ => none
  (start.bind fun inner => Drafts.addKeys inner pairs).map fun inner =>
    entries.erase name ++ [(name, .table .header inner)]

/-- Adds one more table under a header in double brackets. -/
def addElement (entries : Drafts) (name : String) (pairs : List (List String × Value)) :
    Option Drafts :=
  (addKeys [] pairs).bind fun inner =>
    entries.alter name fun
      | none => some (.tables [] inner)
      | some (.tables earlier last) => some (.tables (earlier ++ [last]) inner)
      | some _ => none

end Drafts

mutual
/-- The value that a draft has become. -/
def Draft.close : Draft → Value
  | .closed value => value
  | .table _ entries => .table (Drafts.close entries)
  | .tables earlier last => .array (Drafts.closeAll earlier ++ [.table (Drafts.close last)])

/-- The entries of a table that is complete. -/
def Drafts.close : Drafts → Table
  | [] => []
  | (name, draft) :: rest => (name, draft.close) :: Drafts.close rest

/-- The tables that are complete. -/
def Drafts.closeAll : List Drafts → List Value
  | [] => []
  | entries :: rest => .table (Drafts.close entries) :: Drafts.closeAll rest
end

end LowerComments.Toml
