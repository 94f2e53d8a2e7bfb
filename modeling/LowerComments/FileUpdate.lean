import LowerComments.Comment.Text
import LowerComments.Fault
import LowerComments.Target
import LowerComments.Tree.Replace

/-!
# Updating one file

A file is read, its comments are lower-cased, and the result is written back, also
when nothing changed. A file that cannot be read, or whose bytes are not a text,
is left alone. There are two ways of writing back: in place, which keeps the file
and so all of its names, or as an atomic replacement, which gives the name a new
file.
-/

set_option autoImplicit false

namespace LowerComments

/-- How an updated file reaches the disk. -/
inductive Strategy where
  /-- The file itself is truncated and written. -/
  | inPlace
  /-- A temporary file is written and renamed to the file's name. -/
  | atomic
  deriving DecidableEq, Repr

/-- The counts for one updated file. -/
structure Outcome where
  path : Path
  lines : Nat
  changedLines : Nat
  deriving DecidableEq, Repr

/-- Writes the bytes of a file back. -/
def Tree.store (tree : Tree) (strategy : Strategy) (path : Path) (content : Bytes) :
    Except IoFault Unit × Tree :=
  match strategy with
  | .inPlace =>
    match tree.write path content with
    | .ok written => (.ok (), written)
    | .error fault => (.error fault, tree)
  | .atomic => tree.replace path content

/-- Reads a file, lower-cases its comments and writes it back. -/
def updateFile (target : Target) (strategy : Strategy) (tree : Tree) (path : Path) :
    Except Fault Outcome × Tree :=
  match tree.read path with
  | .error cause => (.error (.read path cause), tree)
  | .ok bytes =>
    match Utf8.decode bytes with
    | .error cause => (.error (.decode path cause), tree)
    | .ok text =>
      let lowered := Comment.lowerComments target.marker text
      match tree.store strategy path (Utf8.encode lowered.text) with
      | (.error cause, after) => (.error (.write path cause), after)
      | (.ok (), after) => (.ok ⟨path, lowered.lines, lowered.changedLines⟩, after)

end LowerComments
