import LowerComments.IoFault

/-!
# Report writers

A writer collects the bytes of a report. It may have a limit. Then it takes bytes
up to the limit, and a write that goes beyond leaves the writer filled to the
limit and fails. Each writer has a failure of its own for this.
-/

set_option autoImplicit false

namespace LowerComments

/-- The bytes written so far, how many are taken in all, and the failure of a write that goes
beyond. -/
structure Writer where
  limit : Option Nat := none
  written : Bytes := []
  fault : IoFault := .reportFull
  deriving DecidableEq, Repr

namespace Writer

/-- The bytes that a writer holds once more bytes were offered to it. -/
def take (writer : Writer) (bytes : Bytes) : Bytes :=
  match writer.limit with
  | none => bytes
  | some limit => bytes.take limit

/-- The writer after bytes were offered to it. -/
def put (writer : Writer) (bytes : Bytes) : Writer :=
  { writer with written := writer.take (writer.written ++ bytes) }

/-- The writer takes all of these bytes. -/
def fits (writer : Writer) (bytes : Bytes) : Bool :=
  match writer.limit with
  | none => true
  | some limit => (writer.written ++ bytes).length ≤ limit

end Writer

end LowerComments
