import LowerComments.Decimal.Shortest
import LowerComments.Text.Quoted

/-!
# Values of a TOML document

A value is what a document says, without how it says it: a table is the same
whether it was written under a header, between braces or with dotted keys. The
entries of a table keep the order in which the document brings them up.

Dates and times are all one to this library, which gives no meaning to any of them.
-/

set_option autoImplicit false

namespace LowerComments.Toml

/-- A value of a TOML document. -/
inductive Value where
  | string (text : String)
  | integer (number : Int)
  | float (number : Decimal.Binary)
  | boolean (flag : Bool)
  /-- A date, a time, or both. -/
  | moment
  | array (elements : List Value)
  | table (entries : List (String × Value))
  deriving Repr

/-- The entries of a table. -/
abbrev Table := List (String × Value)

/-- What a message calls a value that it did not expect. -/
def Value.describe : Value → String
  | .string text => "string " ++ Text.quoted text
  | .integer number => "integer `" ++ toString number ++ "`"
  | .float number => "floating point `" ++ number.display ++ "`"
  | .boolean flag => "boolean `" ++ (if flag then "true" else "false") ++ "`"
  | .moment => "map"
  | .array _ => "sequence"
  | .table _ => "map"

end LowerComments.Toml
