import LowerComments.Proofs.Command.Stages
import LowerComments.Proofs.Run.Contents
import LowerComments.Proofs.Settings.Documents

/-!
# The exit status is truthful

A command whose arguments can be read exits with zero exactly when its settings are loaded,
its directory is listed and each file in it can be updated alone, all of this in the tree
that loading leaves and with the settings in effect. Then its output has one line for each
file and each file holds its text with the comments in lower case (`Succeeds`). Otherwise it
exits with one, its error output ends with the line of the fault that it returns, and its
output has lines only for files that were rewritten (`Fails`). The settings of the user are
those that the file of the user gives in that tree (`AnswersUser`).

There are four ways to fail, and each has its own fault (`Stops`). The settings or the
directory fail before the first file. A run that aborts returns the fault of the first file
that fails, and a run that goes on returns the number of faults, having reported each of them.

Each of the two endings is shown for the stage that comes last, and `answer_exit` puts them
together.
-/

set_option autoImplicit false

namespace LowerComments.Command

/-- Loading answers the settings of the user: what the file of the user says in the tree that
loading leaves. -/
structure AnswersUser (environment : Environment) (tree : Tree) (loaded : Settings.Loaded) :
    Prop where
  /-- The defaults hold when there is no directory for the file. -/
  defaults : (makeSettingsDirectory environment tree).1 = none → loaded.result = .ok {}
  answers : ∀ directory, (makeSettingsDirectory environment tree).1 = some directory →
    ∀ result, loaded.result = result ↔
      Settings.Answers (loaded.tree.reading? (directory.join Settings.userName)) result
  /-- A document gives the settings that stand under its three keys. -/
  document : ∀ directory text table, (makeSettingsDirectory environment tree).1 = some directory →
    loaded.tree.reading? (directory.join Settings.userName) = some (.ok (Utf8.encode text)) →
    Toml.Document.read? text = some table → Settings.IsTyped table →
    ∀ user, loaded.result = .ok user ↔ Settings.Gives table user

/-- The command did all that it was asked for and says so. -/
structure Succeeds (environment : Environment) (loaded : Settings.Loaded) (effective : Settings)
    (files : List Path) (ended : CommandResult) : Prop where
  exit : ended.exit = 0
  /-- There is one line for each file, in order. -/
  output : ended.output = files.flatMap fun path => Bytes.ofString
    ((if environment.styled then "\x1b[32mProcessed:\x1b[0m" else "Processed:") ++ " " ++
      path.shown.display ++ "\n")
  names : ∀ path ∈ files, Report.Names path path.shown.display
  /-- The closing line stands behind the note, unless quiet is in effect. -/
  errors : ended.errors = loaded.notes.written ++
    if effective.quiet then [] else Bytes.ofString
      ((if environment.styled then "\x1b[32m\x1b[1mFinished\x1b[0m" else "Finished") ++ " " ++
        toString files.length ++ " file(s) in " ++ environment.seconds ++ "s.\n")
  lowered : ∀ path ∈ files, LowersComments ['-', '-'] loaded.tree ended.tree path

/-- Where a command stops that fails: the faults that its run reported before, the fault with which
it stops and the files that it rewrote. -/
inductive Stops (environment : Environment) (arguments : Arguments) (loaded : Settings.Loaded) :
    List Fault → Fault → List Path → Prop where
  /-- The settings cannot be loaded. -/
  | settings {fault : Fault} (fails : loaded.result = .error fault) :
      Stops environment arguments loaded [] fault []
  /-- The directory cannot be listed. -/
  | listing {user : Settings} {fault : Fault} (loads : loaded.result = .ok user)
      (fails : discover loaded.tree .lua arguments.path = .error fault) :
      Stops environment arguments loaded [] fault []
  /-- A file fails, and the run is not to go on. -/
  | aborted {user effective : Settings} {earlier later : List Path} {path : Path} {fault : Fault}
      (loads : loaded.result = .ok user) (inEffect : InEffect arguments user effective)
      (policy : effective.onFailure = .abort)
      (lists : discover loaded.tree .lua arguments.path = .ok (earlier ++ path :: later))
      (updates : ∀ file ∈ earlier, ∃ outcome,
        (updateFile .lua effective.strategy loaded.tree file).1 = .ok outcome)
      (fails : (updateFile .lua effective.strategy loaded.tree path).1 = .error fault) :
      Stops environment arguments loaded [] fault earlier
  /-- Some files failed, and the run went on. -/
  | counted {user effective : Settings} {files : List Path}
      (loads : loaded.result = .ok user) (inEffect : InEffect arguments user effective)
      (policy : effective.onFailure = .proceed)
      (lists : discover loaded.tree .lua arguments.path = .ok files)
      (fails : (options environment effective).faults loaded.tree files ≠ []) :
      Stops environment arguments loaded ((options environment effective).faults loaded.tree files)
        (.failed ((options environment effective).faults loaded.tree files).length files.length)
        ((options environment effective).updatable loaded.tree files)

/-- The command failed and says why. -/
structure Fails (environment : Environment) (arguments : Arguments) (loaded : Settings.Loaded)
    (reported : List Fault) (fault : Fault) (rewritten : List Path) (ended : CommandResult) :
    Prop where
  stops : Stops environment arguments loaded reported fault rewritten
  returns : returned environment arguments loaded = .error fault
  exit : ended.exit = 1
  /-- The lines of faults are all that stands behind the note, and the fault that the command
  returns is the last one. -/
  errors : ended.errors = loaded.notes.written ++ (reported ++ [fault]).flatMap fun fault =>
    Bytes.ofString
      ((if environment.styled then "\x1b[31m\x1b[1merror\x1b[0m" else "error") ++ ": " ++
        fault.message ++ "\n")
  /-- Each line says what went wrong. -/
  words : ∀ other ∈ reported ++ [fault], other.Reads other.message
  /-- The output has lines only for files that were rewritten. -/
  output : ended.output = rewritten.flatMap fun path => Bytes.ofString
    ((if environment.styled then "\x1b[32mProcessed:\x1b[0m" else "Processed:") ++ " " ++
      path.shown.display ++ "\n")
  names : ∀ path ∈ rewritten, Report.Names path path.shown.display
  lowered : ∀ path ∈ rewritten, LowersComments ['-', '-'] loaded.tree ended.tree path

variable {environment : Environment} {arguments : Arguments} {tree : Tree} {fault : Fault}
  {user effective : Settings} {files : List Path} {loaded : Settings.Loaded}

/-- **Loading answers what the file of the user says.** -/
theorem answersUser_loadSettings (environment : Environment) (quiet : Bool) (tree : Tree) :
    AnswersUser environment tree (loadSettings environment quiet tree) := by
  have said := result_loadSettings environment quiet tree
  refine ⟨fun none => ?_, fun directory made result => ?_,
    fun directory text table made reading document typed user => ?_⟩
  · rw [said, none]
  · rw [said, made]
    exact Settings.answers_iff.symm
  · rw [said, made]
    exact Settings.said_eq_ok_iff document typed reading

/-- A command that fails has a line for the fault at the end of its error output. -/
theorem errors_failed (environment : Environment) (reported : List Fault) (fault : Fault)
    (output notes : Bytes) (tree : Tree) :
    (failed environment fault output
        (notes ++ reported.flatMap (Report.errorLine environment.styled)) tree).errors =
      notes ++ (reported ++ [fault]).flatMap fun fault => Bytes.ofString
        ((if environment.styled then "\x1b[31m\x1b[1merror\x1b[0m" else "error") ++ ": " ++
          fault.message ++ "\n") := by
  rw [← Report.flatMap_errorLine]
  simp [failed]

/-- The name of each file leads on, since it ends in the extension. -/
theorem names_of_mem {root path : Path} (found : discover tree .lua root = .ok files)
    (member : path ∈ files) : Report.Names path path.shown.display :=
  Report.names_of_mem_discover ⟨.name (Bytes.ofString ".lua"), by decide +kernel, by simp⟩ found
    member

/-- A command that ends before its run has rewritten nothing. -/
theorem fails_failed (stops : Stops environment arguments loaded [] fault [])
    (returns : returned environment arguments loaded = .error fault) :
    Fails environment arguments loaded [] fault []
      (failed environment fault [] loaded.notes.written loaded.tree) where
  stops := stops
  returns := returns
  exit := rfl
  errors := by
    have errors := errors_failed environment [] fault [] loaded.notes.written loaded.tree
    rwa [List.flatMap_nil, List.append_nil] at errors
  words other _ := other.reads_message
  output := rfl
  names := by simp
  lowered := by simp

/-- **A command with all well succeeds.** -/
theorem succeeds_perform (loading : loadSettings environment arguments.quiet tree = loaded)
    (well : AllWell arguments loaded user effective files) :
    Succeeds environment loaded effective files (perform environment arguments tree) := by
  obtain ⟨loads, inEffect, found, updates⟩ := well
  obtain rfl := inEffect_iff.mp inEffect
  have clean : (options environment (arguments.override user)).faults loaded.tree files = [] :=
    RunOptions.faults_eq_nil_iff_updates.mpr updates
  have summary := RunOptions.conclusion_eq_ok_iff.mpr ⟨clean, rfl⟩
  have all := RunOptions.processed_of_faults_eq_nil clean
  have lowered : ∀ path ∈ files, LowersComments ['-', '-'] loaded.tree
      ((options environment (arguments.override user)).updateAll loaded.tree files) path := by
    intro path member
    have processed := lowersComments_updateAll (options environment (arguments.override user))
      Letter.settled_hyphens found (all.symm ▸ member)
    rwa [all] at processed
  have none := RunOptions.reported_of_faults_eq_nil clean
  rw [perform_of_discover environment arguments loading loads found]
  simp only [summary, all, none, RunOptions.errorLines, List.flatMap_nil, List.append_nil]
  refine ⟨rfl, ?_, fun path => names_of_mem found, ?_, lowered⟩
  · exact Report.flatMap_processedLine environment.styled files
  · rw [Report.finishedLine_eq]

/-- Where a run stops that has a fault in the end. -/
theorem stops_of_conclusion (loads : loaded.result = .ok user)
    (found : discover loaded.tree .lua arguments.path = .ok files)
    (inEffect : InEffect arguments user effective)
    (fails : (options environment effective).conclusion loaded.tree files = .error fault) :
    Stops environment arguments loaded ((options environment effective).reported loaded.tree files)
      fault ((options environment effective).processed loaded.tree files) := by
  obtain ⟨policy, silent, path, later, parts, clean, verdict⟩ |
    ⟨policy, reported, processed, failing, rfl⟩ := RunOptions.conclusion_eq_error fails
  · rw [silent]
    exact .aborted loads inEffect policy (found.trans (congrArg _ parts))
      (RunOptions.faults_eq_nil_iff_updates.mp clean) (RunOptions.updateFile_of_fault? verdict)
  · rw [reported, processed]
    exact .counted loads inEffect policy found failing

/-- **A command with anything not well fails.** -/
theorem fails_perform (loading : loadSettings environment arguments.quiet tree = loaded)
    (amiss : ¬ ∃ user effective files, AllWell arguments loaded user effective files) :
    ∃ reported fault rewritten, Fails environment arguments loaded reported fault rewritten
      (perform environment arguments tree) := by
  have returns : returned environment arguments loaded = conclusion environment arguments loaded :=
    returned_eq_conclusion (loading ▸ fits_notes_loadSettings environment arguments.quiet tree)
  have never : ∀ summary, conclusion environment arguments loaded ≠ .ok summary := by
    intro summary concludes
    obtain ⟨user, effective, files, well, _⟩ := conclusion_eq_ok_iff.mp concludes
    exact amiss ⟨user, effective, files, well⟩
  rw [conclusion] at returns never
  cases loads : loaded.result with
  | error fault =>
    simp only [loads] at returns
    rw [perform_of_settings_fault environment arguments loading loads]
    exact ⟨[], fault, [], fails_failed (.settings loads) returns⟩
  | ok user =>
    simp only [loads] at returns never
    cases found : discover loaded.tree .lua arguments.path with
    | error fault =>
      simp only [found] at returns
      rw [perform_of_discovery_fault environment arguments loading loads found]
      exact ⟨[], fault, [], fails_failed (.listing loads found) returns⟩
    | ok files =>
      simp only [found] at returns never
      rw [perform_of_discover environment arguments loading loads found]
      cases concludes : (options environment (arguments.override user)).conclusion loaded.tree
          files with
      | ok summary => exact absurd concludes (never summary)
      | error fault =>
        have stops := stops_of_conclusion loads found (inEffect_iff.mpr rfl) concludes
        simp only [concludes]
        exact ⟨_, fault, _,
          { stops := stops
            returns := returns.trans concludes
            exit := rfl
            errors := errors_failed ..
            words := fun other _ => other.reads_message
            output := Report.flatMap_processedLine ..
            names := fun path member =>
              names_of_mem found (RunOptions.mem_of_mem_processed member).1
            lowered := fun path => lowersComments_updateAll _ Letter.settled_hyphens found }⟩

/-- **The exit status is truthful.** Loading answers the settings of the user, the command exits
with zero exactly when all is well with the settings in effect, it succeeds then, and it fails
otherwise. -/
theorem answer_exit (environment : Environment) (tree : Tree) {words : List Bytes}
    {arguments : Arguments} (parsed : Arguments.read words = .ok arguments) :
    let loaded := loadSettings environment arguments.quiet tree
    let ended := answer environment words tree
    AnswersUser environment tree loaded ∧
    IsNote environment loaded.notes.written ∧
    (ended.exit = 0 ↔ ∃ user effective files, AllWell arguments loaded user effective files) ∧
    (∀ user effective files, AllWell arguments loaded user effective files →
      Succeeds environment loaded effective files ended) ∧
    ((¬ ∃ user effective files, AllWell arguments loaded user effective files) →
      ∃ reported fault rewritten,
        Fails environment arguments loaded reported fault rewritten ended) := by
  intro loaded ended
  have performed : ended = perform environment arguments tree := by
    simp only [ended, answer, parsed]
  rw [performed]
  refine ⟨answersUser_loadSettings environment arguments.quiet tree,
    isNote_loadSettings environment arguments.quiet tree, ⟨fun zero => ?_, ?_⟩,
    fun _ _ _ => succeeds_perform rfl, fails_perform rfl⟩
  · by_contra amiss
    obtain ⟨_, _, _, fails⟩ := fails_perform rfl amiss
    exact absurd (zero.symm.trans fails.exit) (by decide)
  · rintro ⟨user, effective, files, well⟩
    exact (succeeds_perform rfl well).exit

/-- The file that is not text decides: with it the command goes on and fails, and without it all is
well. -/
theorem answer_exit_linkedTree :
    let words := [Bytes.ofString "--atomic", Bytes.ofString "-k"]
    let fails := answer {} words linkedTree
    let succeeds := answer {} words (linkedTree.removeEntry [Bytes.ofString "c.lua"])
    Arguments.read words = .ok { atomic := true, keepGoing := true } ∧
    (fails.exit = 1 ∧
      fails.output = Bytes.ofString "Processed: a.lua\nProcessed: b.lua\n" ∧
      fails.errors = Bytes.ofString ("error: ./c.lua is not valid UTF-8: " ++
        "invalid utf-8 sequence of 1 bytes from index 0\nerror: 1 of 3 file(s) failed\n")) ∧
    succeeds.exit = 0 ∧
      succeeds.output = Bytes.ofString "Processed: a.lua\nProcessed: b.lua\n" ∧
      succeeds.errors = Bytes.ofString "Finished 2 file(s) in 0.000s.\n" := by
  intro words fails succeeds
  have parsed : Arguments.read words = .ok { atomic := true, keepGoing := true } := by decide
  refine ⟨parsed, ⟨?_, by decide +kernel, by decide +kernel⟩, ?_, by decide +kernel,
    by decide +kernel⟩
  · obtain ⟨_, _, _, _, amiss⟩ := answer_exit {} linkedTree parsed
    obtain ⟨_, _, _, ended⟩ := amiss (by
      rintro ⟨user, effective, files, loads, inEffect, found, updates⟩
      have listed : discover linkedTree .lua [Path.dot] =
          .ok [Bytes.ofString "./a.lua", Bytes.ofString "./b.lua", Bytes.ofString "./c.lua"] := rfl
      obtain rfl := Except.ok.inj (listed.symm.trans found)
      obtain rfl := Except.ok.inj loads
      obtain rfl := inEffect_iff.mp inEffect
      obtain ⟨outcome, updated⟩ := updates (Bytes.ofString "./c.lua") (by simp)
      have fault : (updateFile .lua .atomic linkedTree (Bytes.ofString "./c.lua")).1 =
          .error (.decode (Bytes.ofString "./c.lua") ⟨0, some 1⟩) := rfl
      exact absurd (fault.symm.trans updated) (by simp))
    exact ended.exit
  · obtain ⟨_, _, truthful, _, _⟩ :=
      answer_exit {} (linkedTree.removeEntry [Bytes.ofString "c.lua"]) parsed
    refine truthful.mpr ⟨{}, { onFailure := .proceed, strategy := .atomic },
      [Bytes.ofString "./a.lua", Bytes.ofString "./b.lua"], rfl, inEffect_iff.mpr rfl, rfl, ?_⟩
    intro path member
    simp only [List.mem_cons, List.not_mem_nil, or_false] at member
    rcases member with rfl | rfl
    · exact ⟨_, rfl⟩
    · exact ⟨_, rfl⟩

end LowerComments.Command
