import LowerComments.Arguments.Switch
import LowerComments.Report.Style

/-!
# Help and version

The help text lists the argument and the switches in two columns. Headings and
whatever is typed as it stands are set in styles of their own when styles are on;
the columns are aligned by the bare words.
-/

set_option autoImplicit false

namespace LowerComments.Arguments

/-- The name of the command. -/
def commandName : String := "commentcase"

/-- What the command does. -/
def commandPurpose : String :=
  "Lower-case the text of `--` comments in every .lua file of a directory"

/-- The text that the version switch asks for. -/
def versionText : String := commandName ++ " 0.1.0\n"

/-- As many spaces. -/
def spaces (count : Nat) : String :=
  String.ofList (List.replicate count ' ')

/-- The letter of a switch and the comma behind it, or as much space. -/
def Switch.letterPart (styled : Bool) (switch : Switch) : String :=
  match switch.letter with
  | some letter => Style.literal.apply styled ("-" ++ String.singleton letter) ++ ", "
  | none => spaces 4

/-- The name of a switch with its hyphens. -/
def Switch.longForm (switch : Switch) : String := "--" ++ switch.name

/-- The width of the column for the names of switches. -/
def nameWidth : Nat :=
  switches.foldl (fun width switch => max width switch.longForm.length) 0

/-- The line about a switch. -/
def Switch.helpLine (styled : Bool) (switch : Switch) : String :=
  "  " ++ switch.letterPart styled ++ Style.literal.apply styled switch.longForm ++
    spaces (nameWidth - switch.longForm.length) ++ "  " ++ switch.purpose ++ "\n"

/-- The text that the help switch asks for. -/
def helpText (styled : Bool) : String :=
  let heading (words : String) : String := Style.emphasis.apply styled words
  commandPurpose ++ "\n\n" ++
    heading "Usage:" ++ " " ++ Style.literal.apply styled commandName ++ " [OPTIONS] [PATH]\n\n" ++
    heading "Arguments:" ++ "\n" ++
    "  [PATH]  Directory holding the .lua files (not searched recursively) [default: .]\n\n" ++
    heading "Options:" ++ "\n" ++
    String.join (switches.map (Switch.helpLine styled))

end LowerComments.Arguments
