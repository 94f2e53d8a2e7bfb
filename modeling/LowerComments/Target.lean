import LowerComments.Path

/-!
# What is updated

A target names the files to update by the end of their names, and the text that
opens a comment in them.
-/

set_option autoImplicit false

namespace LowerComments

/-- Files whose names end in `extension`, with comments that `marker` opens. -/
structure Target where
  extension : Bytes
  marker : List Char
  deriving DecidableEq, Repr

namespace Target

/-- Lua sources. -/
def lua : Target where
  extension := Bytes.ofString ".lua"
  marker := ['-', '-']

/-- The name ends in the extension, byte for byte. -/
def accepts (target : Target) (name : Name) : Bool :=
  target.extension.isSuffixOf name

end Target

end LowerComments
