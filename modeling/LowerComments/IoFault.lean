import LowerComments.Path
import LowerComments.SystemError
import LowerComments.Text.Quoted

/-!
# Failures of input and output

Most failures of reading and writing come from the operating system. A few are
found before it is asked or after it has answered: a path with a NUL byte in it,
a file that should be text and is not, and a report that takes no more bytes.
-/

set_option autoImplicit false

namespace LowerComments

/-- Why reading or writing failed. -/
inductive IoFault where
  /-- The operating system refused. -/
  | system (error : SystemError)
  /-- The operating system refused to create this file. -/
  | creating (error : SystemError) (path : Path)
  /-- The path holds a NUL byte, and no path of the operating system does. -/
  | nulInPath
  /-- A file read as text is not well-formed UTF-8. -/
  | notText
  /-- A report has taken all the bytes that it takes. -/
  | reportFull
  /-- Another cause, given in words. -/
  | other (words : String)
  deriving DecidableEq, Repr

/-- The failure in words. -/
def IoFault.message : IoFault → String
  | .system error => error.message
  | .creating error path => error.message ++ " at path " ++ Text.quoted path.display
  | .nulInPath => "file name contained an unexpected NUL byte"
  | .notText => "stream did not contain valid UTF-8"
  | .reportFull => "writer is full"
  | .other words => words

end LowerComments
