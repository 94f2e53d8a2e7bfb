import LowerComments.Tree.Content

/-!
# Changing the shape of a tree

Directories, links and further names of files are made here, and entries are
removed, renamed and given permission bits. None of these operations touches the
bytes of a file.
-/

set_option autoImplicit false

namespace LowerComments.Tree

/-- The permission bits of a directory that is created. -/
def newDirectoryMode : Nat := 0o755

/-- The place of a new entry at the end of a path. A link at the end of the path counts as an
entry, and so the name is taken. -/
def newPlace (tree : Tree) (path : Path) : Except IoFault Place :=
  match tree.locate false path with
  | .error fault => .error fault
  | .ok place =>
    match tree.entryAt place with
    | some _ => .error (.system .alreadyExists)
    | none => if tree.isSealed place.tail then .error (.system .notFound) else .ok place

/-- Makes the directories along components that are missing, up to the first that cannot be
made. `passed` are the components behind which the directory is known to exist. -/
def makeDirectoriesFrom (start : Place) (tree : Tree) (passed : List Path.Component) :
    List Path.Component → Except IoFault Unit × Tree
  | [] => (.ok (), tree)
  | component :: rest =>
    let along := passed ++ [component]
    let failed (error : SystemError) : Except IoFault Unit × Tree := (.error (.system error), tree)
    match resolve tree.entryAt true linkLimit start along with
    | .error error => failed error
    | .ok place =>
      match tree.entryAt place with
      | some (.directory _ _) => makeDirectoriesFrom start tree along rest
      | some _ => failed .alreadyExists
      | none =>
        match resolve tree.entryAt false linkLimit start along with
        | .error error => failed error
        | .ok own =>
          if own = place then
            if tree.isSealed place.tail then failed .notFound
            else
              makeDirectoriesFrom start (tree.setEntry place (.directory newDirectoryMode false))
                along rest
          else failed .alreadyExists

/-- Makes the directory of a path and those on the way that are missing. The ones made in front
of one that cannot be made remain. -/
def makeDirectories (tree : Tree) (path : Path) : Except IoFault Unit × Tree :=
  match path.fault? with
  | some fault => (.error fault, tree)
  | none => makeDirectoriesFrom (tree.startOf path) tree [] path.components

/-- Makes a symbolic link. -/
def makeLink (tree : Tree) (path target : Path) : Except IoFault Tree :=
  match tree.newPlace path with
  | .error fault => .error fault
  | .ok place => .ok (tree.addLink place target)

/-- Gives a second name to what stands at a path. -/
def addName (tree : Tree) (path existing : Path) : Except IoFault Tree :=
  match tree.locate false existing, tree.newPlace path with
  | .error fault, _ => .error fault
  | _, .error fault => .error fault
  | .ok source, .ok place =>
    match tree.entryAt source with
    | none => .error (.system .notFound)
    | some (.directory _ _) => .error (.system .notPermitted)
    | some entry => .ok (tree.setEntry place entry)

/-- Removes a file or a link by its name. -/
def remove (tree : Tree) (path : Path) : Except IoFault Tree :=
  match tree.locate false path with
  | .error fault => .error fault
  | .ok place =>
    match tree.entryAt place with
    | none => .error (.system .notFound)
    | some (.directory _ _) => .error (.system .isDirectory)
    | some _ => .ok (tree.removeEntry place)

/-- The place below `target` that lies like this one below `source`. -/
def transplant? (source target place : Place) : Option Place :=
  if source.isSuffixOf place then some (place.take (place.length - source.length) ++ target)
  else none

/-- Moves an entry, and with a directory everything below it, to another place. -/
def relocate (tree : Tree) (source target : Place) : Tree :=
  let moved := tree.entries.items.filterMap fun item =>
    (transplant? source target item.1).map fun place => (item.1, place, item.2)
  let cleared := moved.foldl (fun tree item => tree.removeEntry item.1) tree
  moved.foldl (fun tree item => tree.setEntry item.2.1 item.2.2) cleared

/-- The place of the entry that the last name of a path names, be it a link or missing. Slashes
behind the name are passed over. A path without a name at its end names no entry that could be
moved. -/
def namedPlace (tree : Tree) (path : Path) : Except IoFault Place :=
  match path.fault?, path.trimSlashes.components.getLast? with
  | some fault, _ => .error fault
  | none, some (.name _) => tree.locate false path.trimSlashes
  | none, _ => .error (.system .busy)

/-- Renames an entry. What has the new name already is replaced, if it is of the same kind and,
as a directory, is empty. Two names of one file or link are left as they are. -/
def rename (tree : Tree) (path new : Path) : Except IoFault Tree :=
  match tree.namedPlace path, tree.namedPlace new with
  | .error fault, _ => .error fault
  | _, .error fault => .error fault
  | .ok source, .ok target =>
    match tree.entryAt source, tree.entryAt target with
    | none, _ => .error (.system .notFound)
    | some (.directory _ _), occupant =>
      if source = target then .ok tree
      else if source.isSuffixOf target then .error (.system .invalidArgument)
      else match occupant with
        | none => .ok (tree.relocate source target)
        | some (.directory _ _) =>
          if tree.children target = [] then .ok (tree.relocate source target)
          else .error (.system .notEmpty)
        | some _ => .error (.system .notDirectory)
    | some entry, occupant =>
      if path.endsInSlash ∨ new.endsInSlash then .error (.system .notDirectory)
      else match occupant with
        | some (.directory _ _) => .error (.system .isDirectory)
        | _ => if occupant = some entry then .ok tree else .ok (tree.relocate source target)

/-- Sets the permission bits of the file or directory to which a path leads. -/
def setMode (tree : Tree) (path : Path) (mode : Nat) : Except IoFault Tree :=
  match tree.find path with
  | .error fault => .error fault
  | .ok (place, .directory _ isSealed) => .ok (tree.setEntry place (.directory mode isSealed))
  | .ok (_, .link _ _) => .error (.system .tooManyLinks)
  | .ok (_, .file number) => .ok (tree.setFile number { tree.file number with mode := mode })

/-- The permission bits of the file or directory to which a path leads. -/
def mode (tree : Tree) (path : Path) : Except IoFault Nat :=
  match tree.find path with
  | .error fault => .error fault
  | .ok (_, .directory mode _) => .ok mode
  | .ok (_, .link _ _) => .error (.system .tooManyLinks)
  | .ok (_, .file number) => .ok (tree.file number).mode

end LowerComments.Tree
