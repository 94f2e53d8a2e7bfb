import LowerComments.Proofs.Run.Ending
import LowerComments.Proofs.Settings.Loading

/-!
# The stages of the command

The command loads the settings, lists the directory and runs over the files. Each stage can
be the last one, and `Command.conclusion` is what the stages come to together: the fault of
the first stage that fails, or the summary of the run. This is what the command returns
(`returned_eq_conclusion`). It looks at one tree only, the one that loading the settings
leaves, since a run treats its files by their verdicts on the tree where it starts.

For each stage there is one equation for the command that ends with it
(`perform_of_settings_fault`, `perform_of_discovery_fault`, `perform_of_discover`). What a
command does is shown by going through the three.
-/

set_option autoImplicit false

namespace LowerComments.Command

/-- The options of the run under these settings. -/
def options (environment : Environment) (settings : Settings) : RunOptions where
  onFailure := settings.onFailure
  strategy := settings.strategy
  styled := environment.styled

/-- What the command returns: the fault of loading or the result of the run. -/
def returned (environment : Environment) (arguments : Arguments) (loaded : Settings.Loaded) :
    Except Fault Summary :=
  match loaded.result with
  | .error fault => .error fault
  | .ok settings =>
    (run (options environment (arguments.override settings)) loaded.tree arguments.path {}
      loaded.notes).result

/-- What the stages come to, told from the tree that loading leaves. -/
def conclusion (environment : Environment) (arguments : Arguments) (loaded : Settings.Loaded) :
    Except Fault Summary :=
  match loaded.result with
  | .error fault => .error fault
  | .ok settings =>
    match discover loaded.tree .lua arguments.path with
    | .error fault => .error fault
    | .ok files =>
      (options environment (arguments.override settings)).conclusion loaded.tree files

/-- The settings in effect when these are the settings of the user. The arguments can ask for one
of the two choices that each setting has, and so can the user; the other choice is the default. -/
structure InEffect (arguments : Arguments) (user effective : Settings) : Prop where
  onFailure : effective.onFailure = .proceed ↔
    arguments.keepGoing = true ∨ user.onFailure = .proceed
  strategy : effective.strategy = .atomic ↔ arguments.atomic = true ∨ user.strategy = .atomic
  quiet : effective.quiet = true ↔ arguments.quiet = true ∨ user.quiet = true

/-- **The arguments override the settings of the user** with what they ask for, and with nothing
else. -/
theorem inEffect_iff {arguments : Arguments} {user effective : Settings} :
    InEffect arguments user effective ↔ effective = arguments.override user := by
  constructor
  · rintro ⟨onFailure, strategy, quiet⟩
    obtain ⟨policy, way, hushed⟩ := effective
    have samePolicy : policy = if arguments.keepGoing then .proceed else user.onFailure := by
      cases policy <;> cases own : user.onFailure <;> cases given : arguments.keepGoing <;>
        simp_all
    have sameWay : way = if arguments.atomic then .atomic else user.strategy := by
      cases way <;> cases own : user.strategy <;> cases given : arguments.atomic <;> simp_all
    have sameQuiet : hushed = (arguments.quiet || user.quiet) := by
      rw [Bool.eq_iff_iff, Bool.or_eq_true]
      exact quiet
    rw [Arguments.override, samePolicy, sameWay, sameQuiet]
  · rintro rfl
    refine ⟨?_, ?_, by simp [Arguments.override]⟩
    · cases given : arguments.keepGoing <;> simp [Arguments.override, given]
    · cases given : arguments.atomic <;> simp [Arguments.override, given]

/-- The stages all go well: the settings are loaded, the directory is listed behind that, and each
file in it can be updated alone with the settings in effect. -/
structure AllWell (arguments : Arguments) (loaded : Settings.Loaded) (user effective : Settings)
    (files : List Path) : Prop where
  loads : loaded.result = .ok user
  inEffect : InEffect arguments user effective
  lists : discover loaded.tree .lua arguments.path = .ok files
  updates : ∀ path ∈ files, ∃ outcome,
    (updateFile .lua effective.strategy loaded.tree path).1 = .ok outcome

section Stages

variable {environment : Environment} {arguments : Arguments} {tree : Tree} {fault : Fault}
  {settings : Settings} {files : List Path} {loaded : Settings.Loaded}

/-- The command returns what the stages come to. -/
theorem returned_eq_conclusion (takes : ∀ bytes, loaded.notes.fits bytes = true) :
    returned environment arguments loaded = conclusion environment arguments loaded := by
  rw [returned, conclusion]
  cases loaded.result with
  | error fault => rfl
  | ok settings =>
    cases found : discover loaded.tree .lua arguments.path with
    | error fault => simp only [run, options, found, Progress.finish]
    | ok files =>
      simp only [run_eq (options environment (arguments.override settings)) found
        (Writer.fits_new _) (takes _)]

/-- **The stages come to a summary exactly when they all go well.** -/
theorem conclusion_eq_ok_iff {summary : Summary} :
    conclusion environment arguments loaded = .ok summary ↔
      ∃ user effective files, AllWell arguments loaded user effective files ∧
        summary = ⟨files.length, files.length, 0⟩ := by
  rw [conclusion]
  constructor
  · intro succeeds
    cases result : loaded.result with
    | error fault => simp [result] at succeeds
    | ok settings =>
      cases found : discover loaded.tree .lua arguments.path with
      | error fault => simp [result, found] at succeeds
      | ok files =>
        simp only [result, found] at succeeds
        obtain ⟨clean, same⟩ := RunOptions.conclusion_eq_ok_iff.mp succeeds
        exact ⟨settings, arguments.override settings, files, ⟨result, inEffect_iff.mpr rfl, found,
          RunOptions.faults_eq_nil_iff_updates.mp clean⟩, same⟩
  · rintro ⟨user, effective, files, ⟨loads, inEffect, lists, updates⟩, same⟩
    obtain rfl := inEffect_iff.mp inEffect
    simp only [loads, lists]
    exact RunOptions.conclusion_eq_ok_iff.mpr
      ⟨RunOptions.faults_eq_nil_iff_updates.mpr updates, same⟩

/-- Settings that cannot be loaded are the last stage. -/
theorem perform_of_settings_fault (environment : Environment) (arguments : Arguments)
    (loading : loadSettings environment arguments.quiet tree = loaded)
    (fails : loaded.result = .error fault) :
    perform environment arguments tree =
      failed environment fault [] loaded.notes.written loaded.tree := by
  rw [perform]
  simp only [loading, fails]

/-- A directory that cannot be listed is the last stage. -/
theorem perform_of_discovery_fault (environment : Environment) (arguments : Arguments)
    (loading : loadSettings environment arguments.quiet tree = loaded)
    (loads : loaded.result = .ok settings)
    (fails : discover loaded.tree .lua arguments.path = .error fault) :
    perform environment arguments tree =
      failed environment fault [] loaded.notes.written loaded.tree := by
  rw [perform]
  simp only [loading, loads]
  rw [execute]
  simp only [run, fails, Progress.finish]

/-- **The run is the last stage otherwise.** It reports what it processed and the faults that it
does not leave to the caller, and what the run comes to decides about the end of the report. -/
theorem perform_of_discover (environment : Environment) (arguments : Arguments)
    (loading : loadSettings environment arguments.quiet tree = loaded)
    (loads : loaded.result = .ok settings)
    (found : discover loaded.tree .lua arguments.path = .ok files) :
    perform environment arguments tree =
      let run := options environment (arguments.override settings)
      let output := run.processedLines (run.processed loaded.tree files)
      let errors := loaded.notes.written ++ run.errorLines (run.reported loaded.tree files)
      let after := run.updateAll loaded.tree (run.processed loaded.tree files)
      match run.conclusion loaded.tree files with
      | .error fault => failed environment fault output errors after
      | .ok summary =>
        { exit := 0
          output := output
          errors := errors ++ (if (arguments.override settings).quiet then []
            else Report.finishedLine environment.styled summary.processed environment.seconds)
          tree := after } := by
  have takes : ∀ bytes, loaded.notes.fits bytes = true :=
    loading ▸ fits_notes_loadSettings environment arguments.quiet tree
  have ended := run_eq (options environment (arguments.override settings)) found
    (Writer.fits_new _) (takes _)
  rw [perform]
  simp only [loading, loads]
  rw [execute]
  simp only [options] at ended ⊢
  rewrite [ended]
  rfl

end Stages

end LowerComments.Command
