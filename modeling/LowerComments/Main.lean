import LowerComments.Command
import LowerComments.Disk

/-!
# The program

The program asks the environment, takes a picture of the directories that the
arguments and the settings name, lets the command work on it, stores the result and
writes the reports.
-/

set_option autoImplicit false

namespace LowerComments.Program

/-- The directory that the arguments name, if they ask for a run. -/
def rootOf (arguments : List Bytes) : Option Path :=
  match Arguments.read arguments with
  | .ok arguments => some arguments.path
  | .error _ => none

/-- What the environment says, with the time that a run took. -/
def environment (milliseconds : Nat) : IO Environment := do
  let home ← IO.getEnv "HOME"
  let settingsHome ← IO.getEnv "XDG_CONFIG_HOME"
  let forced ← IO.getEnv "CLICOLOR_FORCE"
  let styled := (← (← IO.getStdout).isTty) || forced.any (· ≠ "0")
  return {
    home := home.map Bytes.ofString
    settingsHome := settingsHome.map Bytes.ofString
    styled := styled
    seconds := Report.secondsText milliseconds }

/-- A picture of the directories that a run looks at. -/
def picture (environment : Environment) (root : Path) : IO Tree := do
  let here := Disk.placeOf (← IO.currentDir).toString
  let start := Disk.withDirectories { workingDirectory := here } here
  let shown ← Disk.addDirectory Target.lua.accepts start root
  match environment.settingsDirectory? with
  | none => return shown
  | some directory =>
    Disk.addDirectory (fun name => name = Settings.exampleName ∨ name = Settings.userName) shown
      directory

end LowerComments.Program

open LowerComments in
/-- Does what the arguments ask for. The time that this takes is known when the changes are
stored, and only the closing line depends on it. -/
def main (words : List String) : IO UInt32 := do
  let arguments := words.map Bytes.ofString
  let started ← IO.monoMsNow
  let before ← Program.environment 0
  let tree ← match Program.rootOf arguments with
    | none => pure {}
    | some root => Program.picture before root
  Disk.store tree (Command.answer before arguments tree).tree
  let environment ← Program.environment ((← IO.monoMsNow) - started)
  let result := Command.answer environment arguments tree
  (← IO.getStdout).write (ByteArray.mk result.output.toArray)
  (← IO.getStderr).write (ByteArray.mk result.errors.toArray)
  return UInt32.ofNat result.exit
