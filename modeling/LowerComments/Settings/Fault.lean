/-!
# Faults of a settings file

A settings file can fail to be a document of its format, it can name a choice that
there is not, and it can give a value of the wrong type or shape.
-/

set_option autoImplicit false

namespace LowerComments.Settings

/-- Why a settings file does not say what the settings are. -/
inductive Fault where
  /-- The text is not a document. -/
  | malformed
  /-- One of two choices is asked for, and something else is named. -/
  | unknownChoice (given first second : String)
  /-- A value of this type is given where that is expected. -/
  | wrongType (given expected : String)
  /-- A choice is given neither by name nor as a table with its name and nothing in it. -/
  | wrongShape
  deriving DecidableEq, Repr

/-- The fault in words. -/
def Fault.message : Fault → String
  | .malformed => "not a valid document"
  | .unknownChoice given first second =>
    "unknown variant `" ++ given ++ "`, expected `" ++ first ++ "` or `" ++ second ++ "`"
  | .wrongType given expected => "invalid type: " ++ given ++ ", expected " ++ expected
  | .wrongShape => "wanted string or table"

end LowerComments.Settings
