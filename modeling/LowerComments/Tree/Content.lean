import LowerComments.Tree.Locate

/-!
# Reading and writing file contents

Reading goes through links to a file. Writing does too, and it keeps the file:
its other names see the new bytes and its permission bits stay. A path whose last
name is missing is written by creating a file of that name, also when a link leads
there.
-/

set_option autoImplicit false

namespace LowerComments.Tree

/-- The permission bits of a file that is created by writing it. -/
def newFileMode : Nat := 0o644

/-- The bytes of the file to which a path leads. -/
def read (tree : Tree) (path : Path) : Except IoFault Bytes :=
  match tree.find path with
  | .error fault => .error fault
  | .ok (_, .directory _ _) => .error (.system .isDirectory)
  | .ok (_, .link _ _) => .error (.system .tooManyLinks)
  | .ok (_, .file number) =>
    match (tree.file number).unreadable with
    | some error => .error (.system error)
    | none => .ok (tree.file number).bytes

/-- The file with other bytes. A device takes the bytes without keeping them. -/
def withContent (file : File) (content : Bytes) : File :=
  if file.isRegular then { file with content := content } else file

/-- The tree after writing all the bytes of the file to which a path leads. -/
def write (tree : Tree) (path : Path) (content : Bytes) : Except IoFault Tree :=
  match tree.locate true path with
  | .error fault => .error fault
  | .ok place =>
    match tree.entryAt place with
    | none =>
      if tree.isSealed place.tail then .error (.system .notFound)
      else .ok (tree.addFile place { content := content, mode := newFileMode })
    | some (.directory _ _) => .error (.system .isDirectory)
    | some (.link _ _) => .error (.system .tooManyLinks)
    | some (.file number) =>
      match (tree.file number).unwritable with
      | some error => .error (.system error)
      | none => .ok (tree.setFile number (withContent (tree.file number) content))

/-- The names in the directory to which a path leads, in no particular order. -/
def list (tree : Tree) (path : Path) : Except IoFault (List Name) :=
  match tree.find path with
  | .error fault => .error fault
  | .ok (place, .directory _ _) => .ok (tree.children place)
  | .ok _ => .error (.system .notDirectory)

end LowerComments.Tree
