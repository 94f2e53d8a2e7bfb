import LowerComments.FileUpdate

/-!
# Settings

Three settings steer a run: what happens after a file fails, how files are written
back, and whether notes and the closing line are left out.
-/

set_option autoImplicit false

namespace LowerComments

/-- What to do with the remaining files once one of them fails. -/
inductive FailurePolicy where
  /-- Stop at the first failure. -/
  | abort
  /-- Go on, report every failure and fail at the end. -/
  | proceed
  deriving DecidableEq, Repr

/-- The settings of a run. The values given here hold unless something else is said. -/
structure Settings where
  onFailure : FailurePolicy := .abort
  strategy : Strategy := .inPlace
  quiet : Bool := false
  deriving DecidableEq, Repr

end LowerComments
