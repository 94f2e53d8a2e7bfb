import LowerComments.Utf8.Encode

/-!
# Switches of the command line

A switch is an argument that starts with a hyphen. Each has a name, which is written
out behind two hyphens, and most have a letter, which follows one hyphen, alone or
in a bundle of letters. The table of the switches serves both the reading of
arguments and the help text.
-/

set_option autoImplicit false

namespace LowerComments.Arguments

/-- A switch that changes how a run goes. -/
inductive Flag where
  | keepGoing
  | atomic
  | quiet
  deriving DecidableEq, Repr

/-- What a switch asks for. -/
inductive Request where
  /-- A change to the run. -/
  | flag (flag : Flag)
  /-- The help text instead of a run. -/
  | help
  /-- The version instead of a run. -/
  | version
  deriving DecidableEq, Repr

/-- A switch of the command line. -/
structure Switch where
  letter : Option Char
  name : String
  /-- What the help text says about it. -/
  purpose : String
  request : Request

/-- The switches in the order of the help text. -/
def switches : List Switch :=
  [⟨some 'k', "keep-going", "Keep processing after a file fails; exit non-zero at the end",
      .flag .keepGoing⟩,
    ⟨none, "atomic", "Write each file through a temporary file and rename it into place",
      .flag .atomic⟩,
    ⟨some 'q', "quiet", "Hide notes and the closing summary", .flag .quiet⟩,
    ⟨some 'h', "help", "Print help", .help⟩,
    ⟨some 'V', "version", "Print version", .version⟩]

/-- What the switch of that name asks for. -/
def named? (name : Bytes) : Option Request :=
  (switches.find? fun switch => Bytes.ofString switch.name = name).map Switch.request

/-- What the switch with that letter asks for. -/
def lettered? (letter : UInt8) : Option Request :=
  (switches.find? fun switch =>
    switch.letter.any fun own => Utf8.encode [own] = [letter]).map Switch.request

end LowerComments.Arguments
