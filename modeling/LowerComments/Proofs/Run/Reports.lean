import LowerComments.Proofs.Report.Wording
import LowerComments.Proofs.Run.Progress

/-!
# What a run reports

The reports and the result of a run follow from the verdicts of the discovered files
on the initial tree. A run that goes on after failures reports every file, the updated
ones on one writer and the faults on the other, in the order of discovery. A run that
aborts is the same run when no file fails, and otherwise it is the beginning of it, up
to the first file that fails.
-/

set_option autoImplicit false

namespace LowerComments

/-! ## Runs that come to their end -/

section Runs

variable {options : RunOptions} {tree : Tree} {root : Path} {out err : Writer} {files : List Path}

/-- A run that nothing ends before its time treats every file by its verdict. -/
theorem run_of_goesOn (options : RunOptions)
    (found : discover tree options.target root = .ok files)
    (goesOn : options.onFailure = .proceed ∨ options.faults tree files = [])
    (outTakes : out.fits (options.processedLines (options.updatable tree files)) = true)
    (errTakes : err.fits (options.errorLines (options.faults tree files)) = true) :
    run options tree root out err =
      { result :=
          if options.faults tree files = [] then .ok ⟨files.length, files.length, 0⟩
          else .error (.failed (options.faults tree files).length files.length)
        tree := options.updateAll tree files
        out := { out with
          written := out.written ++ options.processedLines (options.updatable tree files) }
        err := { err with
          written := err.written ++ options.errorLines (options.faults tree files) } } := by
  have regular : ∀ path ∈ files, tree.isRegularFile path = true := fun _ member =>
    isRegularFile_of_mem_discover found member
  have all := Progress.advanceAll_beyond { tree := tree, out := out, err := err }
    (Tracks.refl options.strategy tree) regular goesOn ⟨outTakes, errTakes⟩
  rw [run, found]
  simp only [all, Progress.beyond, Progress.finish, Writer.put_of_fits outTakes,
    Writer.put_of_fits errTakes, Nat.zero_add]
  by_cases clean : options.faults tree files = []
  · rw [if_neg (by simp [clean]), if_pos clean, clean, RunOptions.updatable_of_faults_eq_nil clean]
    rfl
  · rw [if_pos (List.length_pos_iff.mpr clean), if_neg clean]

/-- A run that aborts ends at the first file that fails. -/
theorem run_of_fault (options : RunOptions) {earlier later : List Path} {path : Path}
    {fault : Fault} (found : discover tree options.target root = .ok files)
    (parts : files = earlier ++ path :: later) (policy : options.onFailure = .abort)
    (clean : options.faults tree earlier = []) (fails : options.fault? tree path = some fault)
    (outTakes : out.fits (options.processedLines (options.updatable tree files)) = true)
    (errTakes : err.fits (options.errorLines (options.faults tree files)) = true) :
    run options tree root out err =
      { result := .error fault
        tree := options.updateAll tree earlier
        out := { out with written := out.written ++ options.processedLines earlier }
        err := err } := by
  subst parts
  have regular : ∀ file ∈ earlier ++ path :: later, tree.isRegularFile file = true :=
    fun _ member => isRegularFile_of_mem_discover found member
  have takes : Progress.Takes options tree { tree := tree, out := out, err := err } earlier :=
    ((Progress.takes_append earlier (path :: later)).mp ⟨outTakes, errTakes⟩).1
  have first := Progress.advanceAll_fault { tree := tree, out := out, err := err } policy
    (Tracks.refl options.strategy tree) regular clean fails takes
  have outPut := Writer.put_of_fits takes.out
  have errPut := Writer.put_of_fits takes.err
  rw [RunOptions.updatable_of_faults_eq_nil clean] at outPut
  rw [clean, RunOptions.errorLines, List.flatMap_nil, List.append_nil] at errPut
  rw [run, found]
  simp only [first, Progress.beyond, Progress.finish, outPut, errPut, clean,
    RunOptions.updatable_of_faults_eq_nil clean, RunOptions.errorLines, List.flatMap_nil]

end Runs

/-! ## Reports and verdicts -/

/-- **What a run reports follows from what each file does alone.** No path is discovered twice,
and the verdict on a file is the same before and after the files in front of it were updated.
With the policy to go on, the run reports the files that can be updated and the faults of the
others, each in a line. With the policy to abort it is the same run when no file fails, and
otherwise it ends at the first file that fails, with its fault and with the files in front of it
updated. The line about a fault says why its file failed and names the path of it, and the line of
an updated file names its path without a leading `.`. -/
theorem run_reports (options : RunOptions) (tree : Tree) (root : Path) (out err : Writer)
    {files : List Path} (found : discover tree options.target root = .ok files)
    (outTakes : out.fits (options.processedLines (options.updatable tree files)) = true)
    (errTakes : err.fits (options.errorLines (options.faults tree files)) = true) :
    let updatedLine (path : Path) : Bytes := Bytes.ofString
      ((if options.styled then "\x1b[32mProcessed:\x1b[0m" else "Processed:") ++ " " ++
        path.shown.display ++ "\n")
    let faultLine (fault : Fault) : Bytes := Bytes.ofString
      ((if options.styled then "\x1b[31m\x1b[1merror\x1b[0m" else "error") ++ ": " ++
        fault.message ++ "\n")
    files.Nodup ∧
    (∀ earlier path later, files = earlier ++ path :: later →
      options.fault? (options.updateAll tree earlier) path = options.fault? tree path) ∧
    (∀ path ∈ files, ∀ fault, options.fault? tree path = some fault →
      fault.path? = some path ∧ fault.Reads fault.message) ∧
    (∀ name, Path.IsName name → root.join name ∈ files →
      Report.Names (root.join name) (root.join name).shown.display) ∧
    run { options with onFailure := .proceed } tree root out err =
      { result :=
          if options.faults tree files = [] then .ok ⟨files.length, files.length, 0⟩
          else .error (.failed (options.faults tree files).length files.length)
        tree := options.updateAll tree files
        out := { out with
          written := out.written ++ (options.updatable tree files).flatMap updatedLine }
        err := { err with
          written := err.written ++ (options.faults tree files).flatMap faultLine } } ∧
    (options.faults tree files = [] →
      run { options with onFailure := .abort } tree root out err =
        run { options with onFailure := .proceed } tree root out err) ∧
    ∀ earlier path later fault, files = earlier ++ path :: later →
      options.faults tree earlier = [] → options.fault? tree path = some fault →
      run { options with onFailure := .abort } tree root out err =
        { result := .error fault
          tree := options.updateAll tree earlier
          out := { out with written := out.written ++ earlier.flatMap updatedLine }
          err := err } := by
  intro updatedLine faultLine
  have updatedLines (paths : List Path) :
      options.processedLines paths = paths.flatMap updatedLine :=
    Report.flatMap_processedLine options.styled paths
  have faultLines (faults : List Fault) : options.errorLines faults = faults.flatMap faultLine :=
    Report.flatMap_errorLine options.styled faults
  have regular : ∀ path ∈ files, tree.isRegularFile path = true := fun _ member =>
    isRegularFile_of_mem_discover found member
  have tracks := Tracks.refl options.strategy tree
  have proceeding := run_of_goesOn { options with onFailure := .proceed } found
    (.inl rfl) outTakes errTakes
  simp only [← updatedLines, ← faultLines]
  refine ⟨nodup_discover found, ?_, ?_,
    fun _ proper _ => Report.names_shown (Path.leadsOn_join root proper), proceeding, ?_, ?_⟩
  · rintro earlier path later rfl
    have before : ∀ file ∈ earlier, tree.isRegularFile file = true := fun file member =>
      regular file (List.mem_append_left _ member)
    exact (tracks.updateAll before).fault?_eq
      (regular path (List.mem_append_right earlier List.mem_cons_self))
  · intro path member fault fails
    exact ⟨(tracks.updateFile_fails (regular path member)
      (RunOptions.updateFile_of_fault? fails)).2, fault.reads_message⟩
  · intro clean
    rw [proceeding]
    exact run_of_goesOn { options with onFailure := .abort } found
      (.inr clean) outTakes errTakes
  · intro earlier path later fault parts clean fails
    exact run_of_fault { options with onFailure := .abort } found parts rfl clean fails
      outTakes errTakes

/-- A directory with a file, a link to that file and a file that is not a text. -/
def linkedTree : Tree :=
  ((({} : Tree).addFile [Bytes.ofString "a.lua"] { content := Bytes.ofString "x -- Y\n" }).addLink
    [Bytes.ofString "b.lua"] (Bytes.ofString "a.lua")).addFile
      [Bytes.ofString "c.lua"] { content := [0xFF] }

/-- The last of three files fails. Reporting it is left to the caller with the policy to abort,
and with the policy to go on its fault is reported and the result counts it. -/
theorem run_reports_linkedTree :
    run { onFailure := .abort } linkedTree (Bytes.ofString ".") {} {} =
      { result := .error (.decode (Bytes.ofString "./c.lua") ⟨0, some 1⟩)
        tree := RunOptions.updateAll {} linkedTree
          [Bytes.ofString "./a.lua", Bytes.ofString "./b.lua"]
        out := { written := Bytes.ofString "Processed: a.lua\nProcessed: b.lua\n" }
        err := {} } ∧
    run { onFailure := .proceed } linkedTree (Bytes.ofString ".") {} {} =
      { result := .error (.failed 1 3)
        tree := RunOptions.updateAll {} linkedTree
          [Bytes.ofString "./a.lua", Bytes.ofString "./b.lua", Bytes.ofString "./c.lua"]
        out := { written := Bytes.ofString "Processed: a.lua\nProcessed: b.lua\n" }
        err :=
          { written := Bytes.ofString ("error: ./c.lua is not valid UTF-8: " ++
              "invalid utf-8 sequence of 1 bytes from index 0\n") } } := by
  have found : discover linkedTree .lua (Bytes.ofString ".") =
      .ok [Bytes.ofString "./a.lua", Bytes.ofString "./b.lua", Bytes.ofString "./c.lua"] := rfl
  obtain ⟨_, _, _, _, proceeding, _, aborting⟩ :=
    run_reports {} linkedTree (Bytes.ofString ".") {} {} found rfl rfl
  refine ⟨?_, proceeding.trans ?_⟩
  · refine (aborting [Bytes.ofString "./a.lua", Bytes.ofString "./b.lua"]
      (Bytes.ofString "./c.lua") [] _ rfl rfl rfl).trans ?_
    rfl
  · rw [RunResult.mk.injEq, Writer.mk.injEq, Writer.mk.injEq]
    refine ⟨rfl, rfl, ⟨rfl, ?_, rfl⟩, rfl, ?_, rfl⟩
    · decide +kernel
    · decide +kernel

end LowerComments
