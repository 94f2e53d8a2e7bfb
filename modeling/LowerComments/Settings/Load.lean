import LowerComments.Report.Lines
import LowerComments.Report.Writer
import LowerComments.Settings.Decode
import LowerComments.Settings.Example
import LowerComments.Tree.Content

/-!
# Loading the settings

The settings stand in a directory of their own. One file in it is an example, which
is written when it is missing and is never read. The other file holds the settings
of the user. When it is there, it has to be a text and a document without faults,
and a note names it unless the reader or the file itself asks for quiet. When it is
not there, the defaults hold.

That the example cannot be written is no fault.
-/

set_option autoImplicit false

namespace LowerComments.Settings

/-- The name of the example. -/
def exampleName : Name := Bytes.ofString "commentcase.conf"

/-- The name of the user's settings. -/
def userName : Name := Bytes.ofString "commentcase.local"

/-- The tree with the example in a directory, if it can be written there. -/
def provideExample (tree : Tree) (directory : Path) : Tree :=
  let path := directory.join exampleName
  if tree.holds path then tree
  else match tree.write path (Bytes.ofString exampleText) with
    | .ok written => written
    | .error _ => tree

/-- The settings in a file. -/
def readFile (tree : Tree) (path : Path) : Except LowerComments.Fault Settings :=
  match tree.read path with
  | .error cause => .error (.io cause)
  | .ok bytes =>
    match Utf8.decode bytes with
    | .error _ => .error (.io .notText)
    | .ok text =>
      match ofText text with
      | .error cause => .error (.settings cause)
      | .ok settings => .ok settings

/-- How loading ended: in settings or a fault, with the tree and the notes. -/
structure Loaded where
  result : Except LowerComments.Fault Settings
  tree : Tree
  notes : Writer

/-- What loading the file of the user answers and notes. -/
def readUser (styled quiet : Bool) (tree : Tree) (directory : Path) (notes : Writer) :
    Except LowerComments.Fault Settings × Writer :=
  let path := directory.join userName
  if tree.holds path then
    match readFile tree path with
    | .error fault => (.error fault, notes)
    | .ok settings =>
      if quiet || settings.quiet then (.ok settings, notes)
      else
        let line := Report.noteLine styled path
        (if notes.fits line then .ok settings else .error (.io notes.fault), notes.put line)
  else (.ok {}, notes)

/-- Loads the settings in a directory. -/
def load (styled quiet : Bool) (tree : Tree) (directory : Path) (notes : Writer) : Loaded :=
  let prepared := provideExample tree directory
  let (result, notes) := readUser styled quiet prepared directory notes
  { result := result, tree := prepared, notes := notes }

end LowerComments.Settings
