import LowerComments.Proofs.Command.Stages
import LowerComments.Proofs.Discovery.Listing
import LowerComments.Proofs.Settings.Preparation

/-!
# Commands that end before their first file

Three things can end a command before it looks at a file of its directory. Its arguments do not
ask for a run, and then it does nothing at all (`halted_tree`). Its settings cannot be loaded,
or its directory cannot be listed, and then it has done what loading does and no more
(`perform_of_early_fault`): the directory for the settings may be there now, with the example
in it.
-/

set_option autoImplicit false

namespace LowerComments.Command

variable {environment : Environment} {arguments : Arguments} {words : List Bytes} {tree : Tree}

/-- **A command that does not run leaves the tree as it is**, and tells by its status whether it was
understood. -/
theorem halted_tree (environment : Environment) (halt : Arguments.Halt) (tree : Tree) :
    (halted environment halt tree).tree = tree ∧
      (halted environment halt tree).exit =
        if halt = .help ∨ halt = .version then 0 else 2 := by
  cases halt <;> exact ⟨rfl, rfl⟩

/-- **A command whose settings or directory fail** has an empty output and leaves the tree that
loading the settings left. -/
theorem perform_of_early_fault
    (early : (∃ fault, (loadSettings environment arguments.quiet tree).result = .error fault) ∨
      ∃ cause, (loadSettings environment arguments.quiet tree).tree.list arguments.path =
        .error cause) :
    let ended := perform environment arguments tree
    ended.exit = 1 ∧ ended.output = [] ∧
      ended.tree = (loadSettings environment arguments.quiet tree).tree := by
  cases loads : (loadSettings environment arguments.quiet tree).result with
  | error fault =>
    rw [perform_of_settings_fault environment arguments rfl loads]
    exact ⟨rfl, rfl, rfl⟩
  | ok settings =>
    obtain ⟨cause, unlisted⟩ := early.resolve_left (by simp [loads])
    have fails : discover (loadSettings environment arguments.quiet tree).tree .lua
        arguments.path = .error (.discovery arguments.path cause) :=
      discover_eq_error_iff.mpr ⟨cause, unlisted, rfl⟩
    rw [perform_of_discovery_fault environment arguments rfl loads fails]
    exact ⟨rfl, rfl, rfl⟩

/-- **A command that ends before its first file leaves every file alone.** Arguments that do not ask
for a run leave the tree as it is; the status is zero for help and the version and two
otherwise. Settings that cannot be loaded, from a file of the user that cannot be read, is no text
or is no document of settings, and a directory that cannot be listed end the command with status
one and an empty output. Every file from before then names the same bytes as before. What is new
are directories on the way to the directory for the settings, and the example where its path
leads; without a directory for the settings nothing is new. -/
theorem answer_early (environment : Environment) (words : List Bytes) (tree : Tree) :
    let ended := answer environment words tree
    (∀ halt, Arguments.read words = .error halt →
      ended.tree = tree ∧ ended.exit = if halt = .help ∨ halt = .version then 0 else 2) ∧
    ∀ arguments, Arguments.read words = .ok arguments →
      let loaded := loadSettings environment arguments.quiet tree
      (∀ fault, loaded.result = .error fault ↔
        ∃ directory, (makeSettingsDirectory environment tree).1 = some directory ∧
          let path := directory.join Settings.userName
          loaded.tree.holds path = true ∧
          ((∃ cause, loaded.tree.read path = .error cause ∧ fault = .io cause) ∨
            (∃ bytes, loaded.tree.read path = .ok bytes ∧ ¬ Utf8.WellFormed bytes ∧
              fault = .io .notText) ∨
            (∃ text cause, loaded.tree.read path = .ok (Utf8.encode text) ∧
              Settings.ofText text = .error cause ∧ fault = .settings cause))) ∧
      (((∃ fault, loaded.result = .error fault) ∨
          ∃ cause, loaded.tree.list arguments.path = .error cause) →
        ended.exit = 1 ∧ ended.output = [] ∧
        (∀ place file, tree.file? place = some file → ended.tree.file? place = some file) ∧
        (environment.settingsDirectory? = none → ended.tree = tree) ∧
        ∀ directory, environment.settingsDirectory? = some directory →
          Furnished tree directory ended.tree) := by
  intro ended
  refine ⟨fun halt halts => ?_, fun arguments parsed => ?_⟩
  · have stays : ended = halted environment halt tree := by
      simp only [ended, answer, halts]
    rw [stays]
    exact halted_tree environment halt tree
  · have performed : ended = perform environment arguments tree := by
      simp only [ended, answer, parsed]
    intro loaded
    refine ⟨fun fault => result_loadSettings_eq_error_iff environment arguments.quiet tree,
      fun early => ?_⟩
    obtain ⟨exit, output, left⟩ := perform_of_early_fault early
    rw [performed, left]
    refine ⟨exit, output, fun place file named => ?_,
      tree_loadSettings_of_none environment arguments.quiet tree,
      fun directory => furnished_loadSettings environment arguments.quiet tree⟩
    cases directory : environment.settingsDirectory? with
    | none => rwa [tree_loadSettings_of_none environment arguments.quiet tree directory]
    | some directory =>
      exact (furnished_loadSettings environment arguments.quiet tree directory).grown.file? named

/-- A home directory with nothing in it beside a file. -/
def homeTree : Tree :=
  (({} : Tree).setEntry [Bytes.ofString "home"] (.directory 0o755 false)).addFile
    [Bytes.ofString "a.lua"] { content := Bytes.ofString "-- A" }

/-- The same with settings that are no text. -/
def garbledTree : Tree :=
  let settings := [Bytes.ofString "commentcase", Bytes.ofString ".config", Bytes.ofString "home"]
  ((homeTree.setEntry settings.tail (.directory 0o755 false)).setEntry settings
    (.directory 0o755 false)).addFile (Settings.userName :: settings) { content := [0xFF] }

/-- A directory that is missing, settings that are no text and a switch that is not known. -/
theorem answer_early_homeTree :
    let environment : Environment := { home := some (Bytes.ofString "/home") }
    let directory := Bytes.ofString "/home/.config/commentcase"
    let unlisted := answer environment [Bytes.ofString "missing"] homeTree
    let unread := answer environment [] garbledTree
    let refused := answer environment [Bytes.ofString "-x"] homeTree
    (unlisted.exit = 1 ∧ Furnished homeTree directory unlisted.tree ∧
        unlisted.tree.file? [Bytes.ofString "a.lua"] =
          some { content := Bytes.ofString "-- A" }) ∧
      (unread.exit = 1 ∧ unread.output = [] ∧ Furnished garbledTree directory unread.tree) ∧
      refused.tree = homeTree ∧ refused.exit = 2 := by
  intro environment directory unlisted unread refused
  have named : environment.settingsDirectory? = some directory := by decide +kernel
  refine ⟨?_, ?_, ?_⟩
  · obtain ⟨_, runs⟩ := answer_early environment [Bytes.ofString "missing"] homeTree
    obtain ⟨_, ends⟩ := runs { path := Bytes.ofString "missing" } (by decide +kernel)
    obtain ⟨exit, _, kept, _, furnished⟩ := ends (.inr ⟨.system .notFound, rfl⟩)
    exact ⟨exit, furnished directory named, kept _ _ rfl⟩
  · obtain ⟨_, runs⟩ := answer_early environment [] garbledTree
    obtain ⟨_, ends⟩ := runs {} (by decide +kernel)
    obtain ⟨exit, output, _, _, furnished⟩ := ends (.inl ⟨.io .notText, rfl⟩)
    exact ⟨exit, output, furnished directory named⟩
  · obtain ⟨halts, _⟩ := answer_early environment [Bytes.ofString "-x"] homeTree
    obtain ⟨same, exit⟩ := halts .unknown (by decide +kernel)
    exact ⟨same, exit⟩

end LowerComments.Command
