import LowerComments.Discovery
import LowerComments.Report.Lines
import LowerComments.Report.Writer
import LowerComments.FileUpdate
import LowerComments.Settings.Basic

/-!
# A run over a directory

A run discovers the files of a target in a directory and updates them one after
another. An updated file is reported on one writer. What becomes of a file that
fails depends on the policy: the run ends with its fault, or the fault is reported
on the other writer and the run goes on, to fail at the end. A report that cannot
be written ends the run at once, with the failure of its writer.
-/

set_option autoImplicit false

namespace LowerComments

/-- The counts of a run. -/
structure Summary where
  total : Nat
  processed : Nat
  failed : Nat
  deriving DecidableEq, Repr

/-- What a run is told apart from the directory. -/
structure RunOptions where
  target : Target := .lua
  onFailure : FailurePolicy := .abort
  strategy : Strategy := .inPlace
  styled : Bool := false

/-- How far a run has come: the tree, the two reports and the counts. -/
structure Progress where
  tree : Tree
  out : Writer
  err : Writer
  processed : Nat := 0
  failed : Nat := 0

/-- How a run ended: in a summary or a fault, with the tree and the reports. -/
structure RunResult where
  result : Except Fault Summary
  tree : Tree
  out : Writer
  err : Writer

/-- A run that ends here. -/
def Progress.finish (progress : Progress) (result : Except Fault Summary) : RunResult :=
  { result := result, tree := progress.tree, out := progress.out, err := progress.err }

/-- What one file contributes: the progress after it, and the fault with which the run ends
there. -/
def Progress.advance (options : RunOptions) (progress : Progress) (path : Path) :
    Progress × Option Fault :=
  match updateFile options.target options.strategy progress.tree path with
  | (.ok outcome, tree) =>
    let line := Report.processedLine options.styled outcome.path
    let next := { progress with
      tree := tree, out := progress.out.put line, processed := progress.processed + 1 }
    (next, if progress.out.fits line then none else some (.io progress.out.fault))
  | (.error fault, tree) =>
    match options.onFailure with
    | .abort => ({ progress with tree := tree }, some fault)
    | .proceed =>
      let line := Report.errorLine options.styled fault
      let next := { progress with
        tree := tree, err := progress.err.put line, failed := progress.failed + 1 }
      (next, if progress.err.fits line then none else some (.io progress.err.fault))

/-- Updates files one after another, up to the one that ends the run. -/
def Progress.advanceAll (options : RunOptions) (progress : Progress) :
    List Path → Progress × Option Fault
  | [] => (progress, none)
  | path :: rest =>
    match progress.advance options path with
    | (next, some fault) => (next, some fault)
    | (next, none) => next.advanceAll options rest

/-- Updates every file of the target in a directory. -/
def run (options : RunOptions) (tree : Tree) (root : Path) (out err : Writer) : RunResult :=
  let start : Progress := { tree := tree, out := out, err := err }
  match discover tree options.target root with
  | .error fault => start.finish (.error fault)
  | .ok files =>
    match start.advanceAll options files with
    | (last, some fault) => last.finish (.error fault)
    | (last, none) =>
      if 0 < last.failed then last.finish (.error (.failed last.failed files.length))
      else last.finish (.ok ⟨files.length, last.processed, last.failed⟩)

end LowerComments
