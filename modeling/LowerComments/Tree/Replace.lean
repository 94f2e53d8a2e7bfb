import LowerComments.Tree.Content

/-!
# Replacing a file in one step

A file is replaced by way of a temporary file beside it. The temporary file is
created, filled, flushed and given the permission bits of the file that it
replaces; only then is it renamed to that file's name. A path that leads to the
file through links is resolved first, so that the links stay and the file that
they lead to is the one replaced. Other names of the old file keep the old bytes.

The steps are data. `perform` carries them out one after another and stops at the
first that fails, and `replaceUnder` then removes the temporary file. What may
refuse a step besides the tree itself is a parameter, so that a failure can be
studied at every step.
-/

set_option autoImplicit false

namespace LowerComments

/-- One step of replacing a file. -/
inductive ReplaceStep where
  /-- Create the temporary file, empty and for its owner only. -/
  | create
  /-- Write bytes at the end of the temporary file. -/
  | append (bytes : Bytes)
  /-- Have the bytes of the temporary file reach the disk. -/
  | flush
  /-- Give the temporary file the permission bits of the file to be replaced. -/
  | copyMode
  /-- Give the temporary file the name of the file to be replaced. -/
  | rename
  deriving DecidableEq, Repr

namespace Tree

/-- What the name of every temporary file starts with. -/
def temporaryStem : Name := Bytes.ofString ".tmp"

/-- The names that temporary files may have, in the order in which they are tried. -/
def temporaryName (attempt : Nat) : Name :=
  temporaryStem ++ Bytes.ofString (toString attempt)

/-- A name that no entry of the directory has: the first one that is not taken. As many names
are tried as the tree has entries, and one more. -/
def freshName (tree : Tree) (directory : Place) : Name :=
  let attempts := List.range (tree.entries.items.length + 1)
  temporaryName ((attempts.find? fun attempt =>
    (tree.entryAt (temporaryName attempt :: directory)).isNone).getD attempts.length)

/-- The permission bits of a temporary file. -/
def temporaryMode : Nat := 0o600

/-- The path of a place from the root. -/
def absolutePath (place : Place) : Path :=
  if place = [] then [Path.slash]
  else place.reverse.flatMap fun name => Path.slash :: name

/-- The tree after changing the file that a place names. -/
def modifyFile (tree : Tree) (place : Place) (change : File → File) : Tree :=
  match tree.entryAt place with
  | some (.file number) => tree.setFile number (change (tree.file number))
  | _ => tree

/-- The permission bits of the file that a place names. -/
def fileMode (tree : Tree) (place : Place) : Nat :=
  match tree.entryAt place with
  | some (.file number) => (tree.file number).mode
  | _ => newFileMode

/-- The tree after giving the entry at one place the name of another. -/
def moveEntry (tree : Tree) (source target : Place) : Tree :=
  match tree.entryAt source with
  | some entry => (tree.setEntry target entry).removeEntry source
  | none => tree

/-- The tree after one step of replacing the file at `target` by way of `temporary`. -/
def replaceStep (target temporary : Place) (tree : Tree) : ReplaceStep → Except IoFault Tree
  | .create =>
    if tree.isSealed temporary.tail then
      .error (.creating .notFound (absolutePath temporary))
    else .ok (tree.addFile temporary { content := [], mode := temporaryMode })
  | .append bytes =>
    .ok (tree.modifyFile temporary fun file => { file with content := file.content ++ bytes })
  | .flush => .ok tree
  | .copyMode =>
    .ok (tree.modifyFile temporary fun file => { file with mode := tree.fileMode target })
  | .rename =>
    match tree.entryAt target with
    | some (.directory _ _) => .error (.system .isDirectory)
    | _ => .ok (tree.moveEntry temporary target)

/-- Carries out steps one after another, up to the first that fails. `refuses` tells which
steps fail for reasons outside the tree. -/
def perform (refuses : ReplaceStep → Option IoFault) (target temporary : Place) :
    Tree → List ReplaceStep → Option IoFault × Tree
  | tree, [] => (none, tree)
  | tree, step :: rest =>
    match refuses step with
    | some fault => (some fault, tree)
    | none =>
      match tree.replaceStep target temporary step with
      | .error fault => (some fault, tree)
      | .ok next => perform refuses target temporary next rest

/-- The steps of replacing a file by one with these bytes, written in several parts. -/
def replaceSteps (parts : List Bytes) : List ReplaceStep :=
  .create :: parts.map .append ++ [.flush, .copyMode, .rename]

/-- Replaces the file to which a path leads, and removes the temporary file should a step
fail. The file is named by its path from the root, and so that path must not be too long. -/
def replaceUnder (refuses : ReplaceStep → Option IoFault) (tree : Tree) (path : Path)
    (parts : List Bytes) : Except IoFault Unit × Tree :=
  match tree.find path with
  | .error fault => (.error fault, tree)
  | .ok (target, _) =>
    if pathLimit ≤ (absolutePath target).length then (.error (.system .nameTooLong), tree)
    else
      let temporary := tree.freshName target.tail :: target.tail
      match perform refuses target temporary tree (replaceSteps parts) with
      | (none, replaced) => (.ok (), replaced)
      | (some fault, unfinished) => (.error fault, unfinished.removeEntry temporary)

/-- Replaces the file to which a path leads by one with these bytes. -/
def replace (tree : Tree) (path : Path) (content : Bytes) : Except IoFault Unit × Tree :=
  tree.replaceUnder (fun _ => none) path [content]

end Tree

end LowerComments
