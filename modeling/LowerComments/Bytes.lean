/-!
# Byte strings

File contents, file names and paths are byte strings. They need not be text in
any encoding.
-/

set_option autoImplicit false

namespace LowerComments

/-- A string of bytes. -/
abbrev Bytes := List UInt8

/-- The order of byte strings: the first difference decides, and a string comes before its
continuations. -/
def Bytes.le : Bytes → Bytes → Bool
  | [], _ => true
  | _ :: _, [] => false
  | left :: lefts, right :: rights =>
    if left = right then Bytes.le lefts rights else left < right

end LowerComments
