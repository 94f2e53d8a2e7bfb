import LowerComments.Utf8.Decode

/-!
# Paths

A path is a byte string with slashes between its components. Paths are kept as
they were given: two spellings of the same place are two paths, and only the
file tree decides where they lead.

The operations here work on the spelling. `join` puts a name behind a directory,
`trimSlashes` takes away the slashes at the end, and `shown` is the form in which a
report names a file: a path under the working directory loses its leading `./`.
-/

set_option autoImplicit false

namespace LowerComments

/-- A path as it is spelled. -/
abbrev Path := Bytes

/-- The name of an entry in a directory. -/
abbrev Name := Bytes

namespace Path

/-- The byte between two components. -/
def slash : UInt8 := 0x2F

/-- The byte of which the components for the directory itself and for its parent consist. -/
def dot : UInt8 := 0x2E

/-- The name behind the directory, with a slash between them unless one is there already. -/
def join (directory : Path) (name : Name) : Path :=
  if directory = [] ∨ directory.getLast? = some slash then directory ++ name
  else directory ++ slash :: name

/-- The path starts at the root of the file tree. -/
def isAbsolute (path : Path) : Bool :=
  path.head? = some slash

/-- The path ends in a slash, and so it can only name a directory. -/
def endsInSlash (path : Path) : Bool :=
  path.getLast? = some slash

/-- The path without the slashes at its end. -/
def trimSlashes (path : Path) : Path :=
  (path.reverse.dropWhile (· = slash)).reverse

/-- A step along a path. -/
inductive Component where
  /-- Stay in the directory. An empty component and a single dot say so. -/
  | here
  /-- Go to the parent directory. -/
  | up
  /-- Go to the entry of that name. -/
  | name (name : Name)
  deriving DecidableEq, Repr

/-- The step that a component stands for. -/
def Component.ofBytes (bytes : Bytes) : Component :=
  if bytes = [] ∨ bytes = [dot] then .here
  else if bytes = [dot, dot] then .up
  else .name bytes

/-- The pieces of a path between its slashes, empty ones included. -/
def pieces : Path → List Bytes
  | [] => [[]]
  | byte :: rest =>
    if byte = slash then [] :: pieces rest
    else match pieces rest with
      | [] => [[byte]]
      | piece :: others => (byte :: piece) :: others

/-- The steps along a path. -/
def components (path : Path) : List Component :=
  path.pieces.map Component.ofBytes

/-- The path without the separators and the single dots in front of its first other
component. -/
def dropHere : Path → Path
  | [] => []
  | [byte] => if byte = slash ∨ byte = dot then [] else [byte]
  | byte :: next :: rest =>
    if byte = slash then dropHere (next :: rest)
    else if byte = dot ∧ next = slash then dropHere rest
    else byte :: next :: rest

/-- The path starts with the component `.`. -/
def startsHere (path : Path) : Bool :=
  path.head? = some dot ∧ (path.tail = [] ∨ path.tail.head? = some slash)

/-- The path as a report names it: without a leading `.` and what separates it from the next
component. -/
def shown (path : Path) : Path :=
  if path.startsHere then dropHere path.tail else path

end Path

end LowerComments
