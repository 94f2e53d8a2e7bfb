import LowerComments.Arguments.Switch
import LowerComments.Path

/-!
# Reading the command line

The arguments are read from left to right, and the first problem decides. An
argument that starts with a hyphen is a switch, unless it is nothing but a hyphen or
stands behind the argument of two hyphens. Any other argument is the operand, the
directory of the run, and there is at most one. No flag is given twice, and no
switch takes a value.

The operand has to be text. This comes to light at the next switch that is known, or
at the end.
-/

set_option autoImplicit false

namespace LowerComments

/-- What the command line asks for. -/
structure Arguments where
  /-- The directory of the run. The working directory is meant when none is given. -/
  path : Path := [Path.dot]
  keepGoing : Bool := false
  atomic : Bool := false
  quiet : Bool := false
  deriving DecidableEq, Repr

namespace Arguments

/-- Why the command line does not ask for a run. -/
inductive Halt where
  /-- There is no such switch, or a second operand. -/
  | unknown
  /-- A flag is given twice. -/
  | repeated
  /-- A value is attached to a switch. -/
  | valueGiven
  /-- The operand is not text. -/
  | notText
  /-- The help text is asked for. -/
  | help
  /-- The version is asked for. -/
  | version
  deriving DecidableEq, Repr

/-- The byte in front of a switch. -/
def hyphen : UInt8 := 0x2D

/-- The byte between the name of a switch and a value. -/
def equals : UInt8 := 0x3D

/-- What an argument is by its form. -/
inductive Form where
  | operand (bytes : Bytes)
  /-- The switch of a name, with a value attached or without. -/
  | name (name : Bytes) (hasValue : Bool)
  /-- The switches with these letters. -/
  | letters (letters : Bytes)
  /-- The end of the switches. -/
  | ending
  deriving DecidableEq, Repr

/-- The form of an argument. -/
def formOf : Bytes → Form
  | [] => .operand []
  | [byte] => .operand [byte]
  | first :: second :: rest =>
    if first ≠ hyphen then .operand (first :: second :: rest)
    else if second ≠ hyphen then .letters (second :: rest)
    else if rest = [] then .ending
    else .name (rest.takeWhile (· ≠ equals)) (rest.contains equals)

/-- The bytes are text. -/
def isText (bytes : Bytes) : Bool :=
  match Utf8.decode bytes with
  | .ok _ => true
  | .error _ => false

/-- What has been read: the operand and the flags. -/
structure Reading where
  operand : Option Bytes := none
  flags : List Flag := []
  deriving DecidableEq, Repr

namespace Reading

/-- The operand, if there is one, is text. -/
def operandIsText (reading : Reading) : Bool :=
  reading.operand.all isText

/-- Reads a switch that asks for something. -/
def request (reading : Reading) (request : Request) : Except Halt Reading :=
  if reading.operandIsText then
    match request with
    | .help => .error .help
    | .version => .error .version
    | .flag flag =>
      if flag ∈ reading.flags then .error .repeated
      else .ok { reading with flags := flag :: reading.flags }
  else .error .notText

/-- Reads the switches with these letters. -/
def letters (reading : Reading) : Bytes → Except Halt Reading
  | [] => .ok reading
  | letter :: rest =>
    match lettered? letter with
    | none => .error .unknown
    | some request =>
      match reading.request request with
      | .error halt => .error halt
      | .ok next => next.letters rest

/-- Reads the switch of a name. -/
def name (reading : Reading) (name : Bytes) (hasValue : Bool) : Except Halt Reading :=
  match named? name with
  | none => .error .unknown
  | some request => if hasValue then .error .valueGiven else reading.request request

/-- Reads an operand. -/
def addOperand (reading : Reading) (bytes : Bytes) : Except Halt Reading :=
  if reading.operand.isSome then .error .unknown
  else .ok { reading with operand := some bytes }

/-- Reads operands only. -/
def operands (reading : Reading) : List Bytes → Except Halt Reading
  | [] => .ok reading
  | argument :: rest =>
    match reading.addOperand argument with
    | .error halt => .error halt
    | .ok next => next.operands rest

/-- Reads an argument in front of the end of the switches. -/
def argument (reading : Reading) : Form → Except Halt Reading
  | .operand bytes => reading.addOperand bytes
  | .name name hasValue => reading.name name hasValue
  | .letters letters => reading.letters letters
  | .ending => .ok reading

/-- Reads arguments. -/
def arguments (reading : Reading) : List Bytes → Except Halt Reading
  | [] => .ok reading
  | argument :: rest =>
    let form := formOf argument
    if form = .ending then reading.operands rest
    else match reading.argument form with
      | .error halt => .error halt
      | .ok next => next.arguments rest

/-- What the command line asks for once it has been read to its end. -/
def finish (reading : Reading) : Except Halt Arguments :=
  if reading.operandIsText then
    .ok
      { path := reading.operand.getD [Path.dot]
        keepGoing := reading.flags.contains .keepGoing
        atomic := reading.flags.contains .atomic
        quiet := reading.flags.contains .quiet }
  else .error .notText

end Reading

/-- What the command line asks for. -/
def read (arguments : List Bytes) : Except Halt Arguments :=
  match Reading.arguments {} arguments with
  | .error halt => .error halt
  | .ok reading => reading.finish

end Arguments

end LowerComments
