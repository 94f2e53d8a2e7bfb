import LowerComments.Arguments.Help
import LowerComments.Arguments.Read
import LowerComments.Run
import LowerComments.Settings.Load
import LowerComments.Tree.Build

/-!
# The command

The command reads its arguments, loads the settings of the user, lets the arguments
override them, and runs over a directory. Its report goes to the output, and notes,
errors and the closing line go to the error output. The exit status tells whether
the run succeeded, failed, or was not understood.

The command is a function of its arguments, what the environment says and the file
tree. The time that a run takes is known only when it is over, and so it is a part
of the environment as far as this module is concerned.
-/

set_option autoImplicit false

namespace LowerComments

/-- What the environment tells the command. -/
structure Environment where
  /-- The home directory of the user. -/
  home : Option Path := none
  /-- The directory for settings, if one is named. A path that is not absolute names none. -/
  settingsHome : Option Path := none
  /-- Words in the reports are set in styles. -/
  styled : Bool := false
  /-- The time that the run takes, in seconds. -/
  seconds : String := "0.000"

/-- How the command ended: its exit status, what it wrote, and the tree. -/
structure CommandResult where
  exit : Nat
  output : Bytes
  errors : Bytes
  tree : Tree

namespace Environment

/-- The directory that holds the directories for settings. -/
def settingsRoot? (environment : Environment) : Option Path :=
  let default := environment.home.map fun home => home.join (Bytes.ofString ".config")
  match environment.settingsHome with
  | none => default
  | some path => if path.isAbsolute then some path else default

/-- The directory for the settings of this command. It is known when the home directory is. -/
def settingsDirectory? (environment : Environment) : Option Path :=
  match environment.home with
  | none => none
  | some _ => environment.settingsRoot?.map fun root =>
      root.join (Bytes.ofString Arguments.commandName)

end Environment

namespace Arguments

/-- The settings with what the arguments say in place of them. -/
def override (arguments : Arguments) (settings : Settings) : Settings where
  onFailure := if arguments.keepGoing then .proceed else settings.onFailure
  strategy := if arguments.atomic then .atomic else settings.strategy
  quiet := arguments.quiet || settings.quiet

/-- What the command says when it does not run. -/
def Halt.message : Halt → String
  | .unknown => "unexpected argument"
  | .repeated => "a switch cannot be given twice"
  | .valueGiven => "a switch takes no value"
  | .notText => "the path is not valid UTF-8"
  | .help => "help"
  | .version => "version"

end Arguments

namespace Command

/-- Loads the settings. The defaults hold when there is no directory for them and none can be
made. -/
def loadSettings (environment : Environment) (quiet : Bool) (tree : Tree) : Settings.Loaded :=
  match environment.settingsDirectory? with
  | none => { result := .ok {}, tree := tree, notes := {} }
  | some directory =>
    match tree.makeDirectories directory with
    | (.error _, prepared) => { result := .ok {}, tree := prepared, notes := {} }
    | (.ok (), prepared) => Settings.load environment.styled quiet prepared directory {}

/-- The command that failed with this fault, having written this much. -/
def failed (environment : Environment) (fault : Fault) (output errors : Bytes) (tree : Tree) :
    CommandResult where
  exit := 1
  output := output
  errors := errors ++ Report.errorLine environment.styled fault
  tree := tree

/-- Runs over a directory with these settings. The notes are what the error output holds
already. -/
def execute (environment : Environment) (settings : Settings) (path : Path) (notes : Writer)
    (tree : Tree) : CommandResult :=
  let options : RunOptions :=
    { onFailure := settings.onFailure
      strategy := settings.strategy
      styled := environment.styled }
  let ended := LowerComments.run options tree path {} notes
  match ended.result with
  | .error fault =>
    failed environment fault ended.out.written ended.err.written ended.tree
  | .ok summary =>
    let closing := if settings.quiet then []
      else Report.finishedLine environment.styled summary.processed environment.seconds
    { exit := 0
      output := ended.out.written
      errors := ended.err.written ++ closing
      tree := ended.tree }

/-- Does what the arguments ask for. -/
def perform (environment : Environment) (arguments : Arguments) (tree : Tree) : CommandResult :=
  let loaded := loadSettings environment arguments.quiet tree
  match loaded.result with
  | .error fault => failed environment fault [] loaded.notes.written loaded.tree
  | .ok settings =>
    execute environment (arguments.override settings) arguments.path loaded.notes loaded.tree

/-- A command that does not run, and the tree stays as it is. -/
def halted (environment : Environment) (halt : Arguments.Halt) (tree : Tree) : CommandResult :=
  match halt with
  | .help =>
    { exit := 0
      output := Bytes.ofString (Arguments.helpText environment.styled)
      errors := []
      tree := tree }
  | .version =>
    { exit := 0, output := Bytes.ofString Arguments.versionText, errors := [], tree := tree }
  | other =>
    { exit := 2
      output := []
      errors := Bytes.ofString ("error: " ++ other.message ++ "\n")
      tree := tree }

/-- The command with its arguments as they are given. -/
def answer (environment : Environment) (arguments : List Bytes) (tree : Tree) : CommandResult :=
  match Arguments.read arguments with
  | .error halt => halted environment halt tree
  | .ok arguments => perform environment arguments tree

end Command

end LowerComments
