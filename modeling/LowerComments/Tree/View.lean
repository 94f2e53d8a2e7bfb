import LowerComments.Sorting
import LowerComments.Tree.Basic

/-!
# What can be seen of a tree

Numbers of files and links are not visible. At each place one sees a directory, a
link or a file with all that belongs to it, and of two places one can tell whether
they name the same one. Nothing else about a tree can ever be told. `below` lists
everything under a directory in the order of the paths.
-/

set_option autoImplicit false

namespace LowerComments

/-- What one sees at a place. -/
inductive Sight where
  | directory (mode : Nat) (isSealed : Bool)
  | link (path : Path)
  | file (file : File)
  deriving DecidableEq, Repr

namespace Tree

/-- What one sees of an entry. -/
def sightOf (tree : Tree) : Entry → Sight
  | .directory mode isSealed => .directory mode isSealed
  | .link _ path => .link path
  | .file number => .file (tree.file number)

/-- What one sees at a place. -/
def see? (tree : Tree) (place : Place) : Option Sight :=
  (tree.entryAt place).map tree.sightOf

/-- Two places name the same file, or the same link. -/
def sameFile (tree : Tree) (left right : Place) : Prop :=
  ∃ entry number, entry.number? = some number ∧ tree.entryAt left = some entry ∧
    tree.entryAt right = some entry

end Tree

/-- The names from a directory down to a place below it. -/
def Place.below? (directory place : Place) : Option (List Name) :=
  if directory.isSuffixOf place ∧ directory.length < place.length then
    some (place.take (place.length - directory.length)).reverse
  else none

/-- A path through these names. -/
def Path.ofNames : List Name → Path
  | [] => []
  | [name] => name
  | name :: names => name ++ slash :: ofNames names

/-- Everything under a directory, with the paths from there, in their order. -/
def Tree.below (tree : Tree) (directory : Place) : List (Path × Sight) :=
  sortBy (fun left right => Bytes.le left.1 right.1) <|
    tree.entries.items.filterMap fun item =>
      (directory.below? item.1).map fun names => (Path.ofNames names, tree.sightOf item.2)

end LowerComments
