import LowerComments.Tree.Build
import LowerComments.Tree.Replace

/-!
# The disk as a file tree

The command works on a file tree, and a program works on a disk. Before the command
runs, a picture is taken of the directories that it will look at; afterwards what
differs between the tree and the picture is stored on the disk.

A picture holds the real places of what it shows, and a link for each spelling that
leads there in another way. It does not show permission bits, which cannot be asked
for here: a file that is stored as a replacement gets those of a new file.
-/

set_option autoImplicit false

namespace LowerComments.Disk

/-- The failure that an error of input or output stands for. -/
def errorOf : IO.Error → SystemError
  | .alreadyExists _ number _ | .invalidArgument _ number _ | .permissionDenied _ number _
  | .resourceExhausted _ number _ | .inappropriateType _ number _ | .noSuchThing _ number _ =>
    ⟨number.toNat⟩
  | .interrupted _ number _ | .noFileOrDirectory _ number _ => ⟨number.toNat⟩
  | .otherError number _ | .resourceBusy number _ | .resourceVanished number _
  | .unsupportedOperation number _ | .hardwareFault number _ | .unsatisfiedConstraints number _
  | .illegalOperation number _ | .protocolError number _ | .timeExpired number _ =>
    ⟨number.toNat⟩
  | .unexpectedEof | .userError _ => .inputOutput

/-- What an action answers, or why it failed. -/
def attempt {Answer : Type} (action : IO Answer) : IO (Except SystemError Answer) := do
  try return .ok (← action) catch error => return .error (errorOf error)

/-- The path of a place as a string. -/
def pathString (place : Place) : String :=
  Bytes.display (Tree.absolutePath place)

/-- The place of a path from the root that has no links in it. -/
def placeOf (real : String) : Place :=
  (Path.components (Bytes.ofString real)).foldl
    (fun place component => match component with
      | .name name => name :: place
      | _ => place)
    []

/-- The tree with directories along a place. -/
def withDirectories (tree : Tree) : Place → Tree
  | [] => tree
  | name :: parent =>
    let above := withDirectories tree parent
    if (above.entryAt (name :: parent)).isSome then above
    else above.setEntry (name :: parent) (.directory Tree.newDirectoryMode false)

/-- The picture of a file: its bytes, or why it cannot be read or written. -/
def fileAt (real : String) : IO File := do
  let content ← attempt (IO.FS.readBinFile real)
  let handle ← attempt (IO.FS.Handle.mk real .readWrite)
  return {
    content := match content with
      | .ok bytes => bytes.toList
      | .error _ => []
    unreadable := match content with
      | .ok _ => none
      | .error error => some error
    unwritable := match handle with
      | .ok _ => none
      | .error error => some error }

/-- Adds what stands at a real place to the picture. -/
def addReal (tree : Tree) (real : String) (kind : IO.FS.FileType) : IO Tree := do
  let place := placeOf real
  if (tree.entryAt place).isSome then return tree
  let above := withDirectories tree place.tail
  match kind with
  | .dir => return withDirectories above place
  | .file => return above.addFile place (← fileAt real)
  | _ => return above.addFile place { isRegular := false }

/-- Adds what stands at a place to the picture, and answers the real place to which it leads. What
leads nowhere is left out. -/
def addEntry (tree : Tree) (place : Place) : IO (Tree × Option Place) := do
  match ← attempt (IO.FS.realPath (pathString place)) with
  | .error _ => return (tree, none)
  | .ok real =>
    let seen ← real.metadata
    let shown ← addReal tree real.toString seen.type
    let target := placeOf real.toString
    let linked := if target = place then shown
      else (withDirectories shown place.tail).addLink place (Tree.absolutePath target)
    return (linked, some target)

/-- Adds what stands along components from a directory, and answers the real place to which they
lead. -/
def addAlong (tree : Tree) (directory : Place) :
    List Path.Component → IO (Tree × Option Place)
  | [] => return (tree, some directory)
  | .here :: rest => addAlong tree directory rest
  | .up :: rest => addAlong tree directory.tail rest
  | .name name :: rest => do
    match ← addEntry tree (name :: directory) with
    | (shown, none) => return (shown, none)
    | (shown, some target) => addAlong shown target rest

/-- Adds a directory and those of its entries whose names are wanted to the picture. -/
def addDirectory (wanted : Name → Bool) (tree : Tree) (path : Path) : IO Tree := do
  match ← addAlong tree (tree.startOf path) path.components with
  | (shown, none) => return shown
  | (shown, some place) =>
    let real ← IO.FS.realPath (pathString place)
    if (← real.isDir) then
      (← real.readDir).foldlM
        (fun tree entry => do
          let name := Bytes.ofString entry.fileName
          if wanted name then
            let (added, _) ← addEntry tree (name :: place)
            return added
          else return tree)
        shown
    else return shown

/-- Stores a file of a tree on the disk that the picture shows. -/
def storeFile (picture tree : Tree) (place : Place) (number : Nat) : IO Unit := do
  let path := pathString place
  let bytes := ByteArray.mk (tree.file number).content.toArray
  match picture.entryAt place with
  | some (.file former) =>
    if former ≠ number then
      let temporary := pathString (picture.freshName place.tail :: place.tail)
      IO.FS.writeBinFile temporary bytes
      IO.FS.rename temporary path
    else if (picture.file number).content ≠ (tree.file number).content then
      IO.FS.writeBinFile path bytes
  | _ => IO.FS.writeBinFile path bytes

/-- Stores on the disk what differs between a tree and the picture, directories before files. -/
def store (picture tree : Tree) : IO Unit := do
  for (place, entry) in tree.entries.items do
    if let .directory _ _ := entry then
      if (picture.entryAt place).isNone then IO.FS.createDirAll (pathString place)
  for (place, entry) in tree.entries.items do
    if let .file number := entry then storeFile picture tree place number

end LowerComments.Disk
