import LowerComments.Fault
import LowerComments.Sorting
import LowerComments.Target
import LowerComments.Tree.Content

/-!
# Finding the files of a target

The files of a target in a directory are the entries directly in it whose names
the target accepts and that lead to a regular file, links followed. Anything else
of such a name is passed over: directories, devices, links that lead nowhere.
Nothing is looked for further down.

The files are listed in the byte order of their names, each as the directory's
path with the name behind it.
-/

set_option autoImplicit false

namespace LowerComments

/-- The paths of the target's files in a directory, in the order of their names. -/
def discover (tree : Tree) (target : Target) (root : Path) : Except Fault (List Path) :=
  match tree.list root with
  | .error cause => .error (.discovery root cause)
  | .ok names =>
    let found := names.filter fun name =>
      target.accepts name && tree.isRegularFile (root.join name)
    .ok ((sortBy Bytes.le found).map root.join)

end LowerComments
