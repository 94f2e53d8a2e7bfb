import LowerComments.IoFault
import LowerComments.Settings.Fault

/-!
# What can go wrong

A fault is the reason why a run, or the processing of one file, does not succeed.
Three of the kinds belong to one file and name its path.
-/

set_option autoImplicit false

namespace LowerComments

/-- Why a run or the processing of one file fails. -/
inductive Fault where
  /-- The directory cannot be listed. -/
  | discovery (root : Path) (cause : IoFault)
  /-- The file cannot be read. -/
  | read (path : Path) (cause : IoFault)
  /-- The bytes of the file are not a text. -/
  | decode (path : Path) (cause : Utf8.Fault)
  /-- The file cannot be written. -/
  | write (path : Path) (cause : IoFault)
  /-- Some of the files failed, and the run went on. -/
  | failed (count total : Nat)
  /-- Something outside the files failed to be read or written. -/
  | io (cause : IoFault)
  /-- The settings file does not say what the settings are. -/
  | settings (cause : Settings.Fault)
  deriving DecidableEq, Repr

namespace Fault

/-- The file that a fault belongs to. -/
def path? : Fault → Option Path
  | .read path _ => some path
  | .decode path _ => some path
  | .write path _ => some path
  | _ => none

/-- The fault in words. -/
def message : Fault → String
  | .discovery root cause => "cannot list " ++ root.display ++ ": " ++ cause.message
  | .read path cause => "cannot read " ++ path.display ++ ": " ++ cause.message
  | .decode path cause => path.display ++ " is not valid UTF-8: " ++ cause.message
  | .write path cause => "cannot write " ++ path.display ++ ": " ++ cause.message
  | .failed count total => toString count ++ " of " ++ toString total ++ " file(s) failed"
  | .io cause => "I/O error: " ++ cause.message
  | .settings cause => "config error: " ++ cause.message

end Fault

end LowerComments
