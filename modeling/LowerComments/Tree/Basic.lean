import LowerComments.Catalog
import LowerComments.Path
import LowerComments.SystemError

/-!
# File trees

A file tree assigns an entry to each of its places: a directory, a symbolic link
with the path that it stands for, or a file. A place is the list of names that
lead to it from the root, the innermost name first, so that the parent of a place
is its tail.

Files are kept apart from the entries, under numbers. Two entries with the same
number are two names of one file: what is written through one of them is read
through the other. A number that no entry carries holds nothing that could be
seen, and it may be given to a new file. Links are numbered together with the
files, so that two names of one link are not mistaken for two links to one path.

Some files cannot be read or written even by their owner, and some directories
take no new entries. The tree records such refusals as properties of the file or
the directory.
-/

set_option autoImplicit false

namespace LowerComments

/-- Where an entry stands: the names from the entry up to the root. -/
abbrev Place := List Name

/-- What stands at a place. -/
inductive Entry where
  /-- A directory, with its permission bits. A sealed one takes no new entries. -/
  | directory (mode : Nat) (isSealed : Bool)
  /-- A name of the symbolic link with that number, to a path. -/
  | link (number : Nat) (path : Path)
  /-- A name of the file with that number. -/
  | file (number : Nat)
  deriving DecidableEq, Repr

/-- The number of the file or the link that an entry names. -/
def Entry.number? : Entry → Option Nat
  | .directory _ _ => none
  | .link number _ => some number
  | .file number => some number

/-- A file: its bytes, its permission bits, whether it is a regular one, and the refusals to
open it for reading and for writing. -/
structure File where
  content : Bytes := []
  mode : Nat := 0o644
  isRegular : Bool := true
  unreadable : Option SystemError := none
  unwritable : Option SystemError := none
  deriving DecidableEq, Repr

/-- The bytes that reading a file gives. A device gives none. -/
def File.bytes (file : File) : Bytes :=
  if file.isRegular then file.content else []

/-- The entries of a file tree, its files and the place where relative paths start. -/
structure Tree where
  entries : Catalog Place Entry := {}
  files : Catalog Nat File := {}
  workingDirectory : Place := []

namespace Tree

/-- What stands at a place. The root is a directory in every tree. -/
def entryAt (tree : Tree) : Place → Option Entry
  | [] => some (.directory 0o755 false)
  | name :: parent => tree.entries.get? (name :: parent)

/-- The file with a number. -/
def file (tree : Tree) (number : Nat) : File :=
  (tree.files.get? number).getD {}

/-- The tree with another entry at a place. -/
def setEntry (tree : Tree) (place : Place) (entry : Entry) : Tree :=
  { tree with entries := tree.entries.insert place entry }

/-- The tree without the entry at a place. -/
def removeEntry (tree : Tree) (place : Place) : Tree :=
  { tree with entries := tree.entries.erase place }

/-- The tree with another file under a number. -/
def setFile (tree : Tree) (number : Nat) (file : File) : Tree :=
  { tree with files := tree.files.insert number file }

/-- A number that no entry carries: one more than the largest. -/
def freshNumber (tree : Tree) : Nat :=
  tree.entries.items.foldr (fun item most => max ((item.2.number?.getD 0) + 1) most) 0

/-- The tree with a new file at a place. -/
def addFile (tree : Tree) (place : Place) (file : File) : Tree :=
  (tree.setFile tree.freshNumber file).setEntry place (.file tree.freshNumber)

/-- The tree with a new link at a place. -/
def addLink (tree : Tree) (place : Place) (path : Path) : Tree :=
  tree.setEntry place (.link tree.freshNumber path)

/-- The entry is a directory that takes no new entries. -/
def isSealed (tree : Tree) (place : Place) : Bool :=
  match tree.entryAt place with
  | some (.directory _ isSealed) => isSealed
  | _ => false

/-- The names of the entries in a directory, in no particular order. -/
def children (tree : Tree) (directory : Place) : List Name :=
  tree.entries.items.filterMap fun item =>
    match item.1 with
    | [] => none
    | name :: parent => if parent = directory then some name else none

end Tree

end LowerComments
