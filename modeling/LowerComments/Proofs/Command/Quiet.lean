import LowerComments.Proofs.Arguments.Flags
import LowerComments.Proofs.Command.Stages
import LowerComments.Proofs.Run.Reports

/-!
# Quiet does not interfere

Quiet is asked for in two places, by an argument and by the file of the user, and it is
looked at in two places, behind the reading of that file and at the end of a run. None of
this reaches the tree, the output or the exit status. The error output loses the note about
the file of the user and the closing line, and keeps the line of each fault
(`answer_quiet`).

The comparison follows the stages of the command. At each of them both commands stand before
the same settings, the same tree and the same files, since these do not depend on what the
arguments say about quiet. The two commands need not take the same time.
-/

set_option autoImplicit false

namespace LowerComments.Command

/-- The one command ends like the other, and its error output is that of the other with only the
lines of the faults. The other one may have a note in front of them and a closing line behind. -/
structure Hushes (environment : Environment) (hushed loud : CommandResult) : Prop where
  exit : hushed.exit = loud.exit
  output : hushed.output = loud.output
  tree : hushed.tree = loud.tree
  errors : ∃ (note : Bytes) (faults : List Fault) (closing : Bytes),
    loud.errors = note ++ faults.flatMap (Report.errorLine environment.styled) ++ closing ∧
    hushed.errors = faults.flatMap (Report.errorLine environment.styled) ∧
    IsNote environment note ∧
    (closing = [] ∨ ∃ count,
      closing = Report.finishedLine environment.styled count environment.seconds)

variable {environment : Environment} {fault : Fault} {output note : Bytes} {tree : Tree}

/-- Commands that fail with one fault behind one report differ in the note only. -/
theorem Hushes.failed (faults : List Fault) (noted : IsNote environment note) :
    Hushes environment
      (failed environment fault output
        (faults.flatMap (Report.errorLine environment.styled)) tree)
      (failed environment fault output
        (note ++ faults.flatMap (Report.errorLine environment.styled)) tree) where
  exit := rfl
  output := rfl
  tree := rfl
  errors := ⟨note, faults ++ [fault], [], by simp [Command.failed], by simp [Command.failed], noted,
    .inl rfl⟩

/-- **What arguments ask for is done in the same way when quiet is added to it.** -/
theorem hushes_perform (environment : Environment) (arguments : Arguments) (tree : Tree) :
    Hushes environment (perform environment { arguments with quiet := true } tree)
      (perform environment arguments tree) := by
  have noted := isNote_loadSettings environment arguments.quiet tree
  have silent := notes_loadSettings_quiet environment tree
  have sameResult := result_loadSettings_other environment true tree arguments.quiet
  have sameTree := tree_loadSettings_other environment true tree arguments.quiet
  generalize loading : loadSettings environment arguments.quiet tree = loaded at *
  generalize hushedLoading : loadSettings environment true tree = hushed at *
  cases loads : loaded.result with
  | error fault =>
    rw [perform_of_settings_fault environment arguments loading loads,
      perform_of_settings_fault environment { arguments with quiet := true } hushedLoading
        (sameResult.trans loads), silent, sameTree]
    simpa using Hushes.failed [] noted
  | ok settings =>
    cases found : discover loaded.tree .lua arguments.path with
    | error fault =>
      rw [perform_of_discovery_fault environment arguments loading loads found,
        perform_of_discovery_fault environment { arguments with quiet := true } hushedLoading
          (sameResult.trans loads) (sameTree ▸ found), silent, sameTree]
      simpa using Hushes.failed [] noted
    | ok files =>
      have sameOptions :
          options environment (({ arguments with quiet := true } : Arguments).override settings) =
            options environment (arguments.override settings) := rfl
      rw [perform_of_discover environment arguments loading loads found,
        perform_of_discover environment { arguments with quiet := true } hushedLoading
          (sameResult.trans loads) (sameTree ▸ found)]
      simp only [silent, sameTree, sameOptions, List.nil_append]
      cases (options environment (arguments.override settings)).conclusion loaded.tree files with
      | error fault => exact Hushes.failed _ noted
      | ok summary =>
        refine ⟨rfl, rfl, rfl, _, _, _, rfl, List.append_nil _, noted, ?_⟩
        split
        · exact .inl rfl
        · exact .inr ⟨summary.processed, rfl⟩

/-- A quiet command does not say how long it took. -/
theorem perform_quiet_seconds (environment : Environment) (seconds : String)
    (arguments : Arguments) (tree : Tree) :
    perform { environment with seconds := seconds } { arguments with quiet := true } tree =
      perform environment { arguments with quiet := true } tree := by
  rw [perform, perform]
  have sameLoaded : loadSettings { environment with seconds := seconds } true tree =
      loadSettings environment true tree := rfl
  simp only [sameLoaded]
  cases (loadSettings environment true tree).result with
  | error fault => rfl
  | ok settings => rfl

/-- **The quiet switch in front of arguments that do not ask for quiet** keeps the exit status, the
output and the tree, and takes from the error output the note about the file of the user and the
closing line only. -/
theorem answer_quiet (environment : Environment) (seconds : String) (tree : Tree)
    {words : List Bytes} {arguments : Arguments} (parsed : Arguments.read words = .ok arguments)
    (loud : arguments.quiet = false) :
    Hushes environment
      (answer { environment with seconds := seconds } (Bytes.ofString "-q" :: words) tree)
      (answer environment words tree) := by
  have hushed := Arguments.read_quiet_cons parsed loud
  rw [answer, answer, hushed, parsed]
  simp only
  rw [perform_quiet_seconds]
  exact hushes_perform environment arguments tree

/-- A user with a home directory goes on after the file that is not text, once with the closing
line and once, in more time, without. -/
theorem answer_quiet_linkedTree :
    Arguments.read [Bytes.ofString "--keep-going"] = .ok { keepGoing := true } ∧
    Hushes { home := some (Bytes.ofString "/home/user") }
      (answer { home := some (Bytes.ofString "/home/user"), seconds := "0.002" }
        [Bytes.ofString "-q", Bytes.ofString "--keep-going"] linkedTree)
      (answer { home := some (Bytes.ofString "/home/user") } [Bytes.ofString "--keep-going"]
        linkedTree) := by
  have parsed : Arguments.read [Bytes.ofString "--keep-going"] = .ok { keepGoing := true } := by
    decide
  exact ⟨parsed, answer_quiet _ "0.002" linkedTree parsed rfl⟩

end LowerComments.Command
