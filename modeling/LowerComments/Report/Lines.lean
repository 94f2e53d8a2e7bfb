import LowerComments.Fault
import LowerComments.Report.Style

/-!
# The lines of a report

Each line ends in a line feed. Paths are shown as text, with a replacement
character for each malformed sequence.
-/

set_option autoImplicit false

namespace LowerComments.Report

/-- The line for a file that was updated. -/
def processedLine (styled : Bool) (path : Path) : Bytes :=
  Bytes.ofString (Style.success.apply styled "Processed:" ++ " " ++ path.shown.display ++ "\n")

/-- The line for a fault. -/
def errorLine (styled : Bool) (fault : Fault) : Bytes :=
  Bytes.ofString (Style.failure.apply styled "error" ++ ": " ++ fault.message ++ "\n")

/-- The line that names the settings file that was read. -/
def noteLine (styled : Bool) (path : Path) : Bytes :=
  Bytes.ofString (Style.strongSuccess.apply styled "note" ++ ": Loaded user config from: " ++
    Style.emphasis.apply styled path.display ++ "\n")

/-- A time in seconds, with three digits behind the point. -/
def secondsText (milliseconds : Nat) : String :=
  let fraction := Nat.toDigits 10 (milliseconds % 1000)
  toString (milliseconds / 1000) ++ "." ++
    String.ofList (List.replicate (3 - fraction.length) '0' ++ fraction)

/-- The line at the end of a run without faults, which took this time in seconds. -/
def finishedLine (styled : Bool) (processed : Nat) (seconds : String) : Bytes :=
  Bytes.ofString (Style.strongSuccess.apply styled "Finished" ++ " " ++ toString processed ++
    " file(s) in " ++ seconds ++ "s.\n")

end LowerComments.Report
