import LowerComments.IoFault
import LowerComments.Tree.Basic

/-!
# Where a path leads

A path is followed one component at a time, from the root when it is absolute and
from the working directory otherwise. A name leads to the entry of that name; a
link on the way is replaced by the components of its path, which are followed from
the directory that holds the link. A link at the very end of a path is replaced
too, unless the path is to name the link itself.

`walk` follows components up to the next link that has to be replaced, and
`resolve` replaces links, a limited number of them. Both see the tree only through
the entry at each place, and both are structural recursions: `walk` on the
components and `resolve` on the number of links that may still be replaced.

The place found need not hold an entry. When only the last name of a path is
missing, the path leads to the place where an entry of that name would be created.
-/

set_option autoImplicit false

namespace LowerComments

/-- How far a walk along components comes. -/
inductive Stop where
  /-- The components lead to this place. -/
  | arrived (place : Place)
  /-- There is a link to this path in that directory, and these components follow it. -/
  | link (directory : Place) (path : Path) (rest : List Path.Component)
  deriving DecidableEq, Repr

/-- The longest name that a directory entry can have. -/
def maximalName : Nat := 255

/-- The length from which on a path is refused. -/
def pathLimit : Nat := 4096

/-- The number of links that are replaced along one path. -/
def linkLimit : Nat := 40

/-- Follows components from a directory, up to the next link to be replaced. -/
def walk (entryAt : Place → Option Entry) (followLast : Bool) (directory : Place) :
    List Path.Component → Except SystemError Stop
  | [] => .ok (.arrived directory)
  | .here :: rest => walk entryAt followLast directory rest
  | .up :: rest => walk entryAt followLast directory.tail rest
  | .name name :: rest =>
    if maximalName < name.length then .error .nameTooLong
    else match entryAt (name :: directory) with
      | none =>
        if rest = [] then .ok (.arrived (name :: directory)) else .error .notFound
      | some (.directory _ _) => walk entryAt followLast (name :: directory) rest
      | some (.file _) =>
        if rest = [] then .ok (.arrived (name :: directory)) else .error .notDirectory
      | some (.link _ path) =>
        if rest = [] ∧ followLast = false then .ok (.arrived (name :: directory))
        else .ok (.link directory path rest)

/-- Follows components from a directory and replaces the links on the way. -/
def resolve (entryAt : Place → Option Entry) (followLast : Bool) :
    Nat → Place → List Path.Component → Except SystemError Place
  | links, directory, components =>
    match walk entryAt followLast directory components with
    | .error error => .error error
    | .ok (.arrived place) => .ok place
    | .ok (.link holder path rest) =>
      match links with
      | 0 => .error .tooManyLinks
      | links + 1 =>
        resolve entryAt followLast links (if path.isAbsolute then [] else holder)
          (path.components ++ rest)

namespace Path

/-- Why a path is refused before any of its components is looked at. -/
def fault? (path : Path) : Option IoFault :=
  if 0 ∈ path then some .nulInPath
  else if path = [] then some (.system .notFound)
  else if pathLimit ≤ path.length then some (.system .nameTooLong)
  else none

end Path

namespace Tree

/-- The directory where a path starts. -/
def startOf (tree : Tree) (path : Path) : Place :=
  if path.isAbsolute then [] else tree.workingDirectory

/-- The place to which a path leads. -/
def locate (tree : Tree) (followLast : Bool) (path : Path) : Except IoFault Place :=
  match path.fault? with
  | some fault => .error fault
  | none =>
    match resolve tree.entryAt followLast linkLimit (tree.startOf path) path.components with
    | .ok place => .ok place
    | .error error => .error (.system error)

/-- The place to which a path leads and the entry there, links replaced. -/
def find (tree : Tree) (path : Path) : Except IoFault (Place × Entry) :=
  match tree.locate true path with
  | .error fault => .error fault
  | .ok place =>
    match tree.entryAt place with
    | none => .error (.system .notFound)
    | some entry => .ok (place, entry)

/-- The path leads to an entry. -/
def holds (tree : Tree) (path : Path) : Bool :=
  match tree.find path with
  | .ok _ => true
  | .error _ => false

/-- The path leads to a directory. -/
def isDirectory (tree : Tree) (path : Path) : Bool :=
  match tree.find path with
  | .ok (_, .directory _ _) => true
  | _ => false

/-- The path leads to a regular file. -/
def isRegularFile (tree : Tree) (path : Path) : Bool :=
  match tree.find path with
  | .ok (_, .file number) => (tree.file number).isRegular
  | _ => false

end Tree

end LowerComments
