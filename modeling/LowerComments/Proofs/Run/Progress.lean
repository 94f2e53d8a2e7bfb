import LowerComments.Proofs.Discovery
import LowerComments.Proofs.Report.Writer
import LowerComments.Proofs.Update.Tracking
import LowerComments.Run

/-!
# How far a run comes

A file has a verdict of its own: the fault with which it fails when it is the only one
to be updated (`RunOptions.fault?`). The run treats each file according to this
verdict, whatever was updated before. Where a run comes over a list of files can
therefore be told from the initial tree (`Progress.beyond`), as long as nothing ends
the run and the writers take the reports (`advanceAll_beyond`). With the policy to
abort, the first file that fails ends the run where it is (`advanceAll_fault`).
-/

set_option autoImplicit false

namespace LowerComments

/-! ## What becomes of each file -/

namespace RunOptions

variable (options : RunOptions) (tree : Tree)

/-- The fault with which a file fails when it is the only one to be updated. -/
def fault? (path : Path) : Option Fault :=
  match (updateFile options.target options.strategy tree path).1 with
  | .ok _ => none
  | .error fault => some fault

/-- The files that do not fail, in their order. -/
def updatable (files : List Path) : List Path :=
  files.filter fun path => (options.fault? tree path).isNone

/-- The faults of the files that fail, in their order. -/
def faults (files : List Path) : List Fault :=
  files.filterMap (options.fault? tree)

/-- The lines that report updated files. -/
def processedLines (files : List Path) : Bytes :=
  files.flatMap (Report.processedLine options.styled)

/-- The lines that report faults. -/
def errorLines (faults : List Fault) : Bytes :=
  faults.flatMap (Report.errorLine options.styled)

/-- The tree after files were updated one after another. -/
def updateAll (files : List Path) : Tree :=
  files.foldl (fun tree path => (updateFile options.target options.strategy tree path).2) tree

section Append

variable (earlier later : List Path)

@[simp] theorem updatable_append : options.updatable tree (earlier ++ later) =
    options.updatable tree earlier ++ options.updatable tree later :=
  List.filter_append ..

@[simp] theorem faults_append : options.faults tree (earlier ++ later) =
    options.faults tree earlier ++ options.faults tree later :=
  List.filterMap_append

@[simp] theorem processedLines_append : options.processedLines (earlier ++ later) =
    options.processedLines earlier ++ options.processedLines later :=
  List.flatMap_append

@[simp] theorem errorLines_append (earlier later : List Fault) :
    options.errorLines (earlier ++ later) =
      options.errorLines earlier ++ options.errorLines later :=
  List.flatMap_append

theorem updateAll_cons (path : Path) (later : List Path) :
    options.updateAll tree (path :: later) =
      options.updateAll (updateFile options.target options.strategy tree path).2 later := rfl

@[simp] theorem updateAll_append : options.updateAll tree (earlier ++ later) =
    options.updateAll (options.updateAll tree earlier) later :=
  List.foldl_append

end Append

variable {options tree} {files : List Path}

theorem updateFile_of_fault? {path : Path} {fault : Fault}
    (fails : options.fault? tree path = some fault) :
    (updateFile options.target options.strategy tree path).1 = .error fault := by
  rw [fault?] at fails
  split at fails
  · exact absurd fails (by simp)
  · next cause stopped => rw [stopped, Option.some.inj fails]

theorem updateFile_of_no_fault? {path : Path} (free : options.fault? tree path = none) :
    ∃ outcome, (updateFile options.target options.strategy tree path).1 = .ok outcome := by
  rw [fault?] at free
  split at free
  · next outcome updated => exact ⟨outcome, updated⟩
  · exact absurd free (by simp)

/-- The verdict on a path to a file is that on the file. -/
theorem fault?_eq_updateFault? {path : Path} {place : Place} {file : File}
    (leads : tree.LeadsTo path place file) :
    options.fault? tree path = tree.updateFault? options.strategy path place file := by
  cases verdict : tree.updateFault? options.strategy path place file with
  | none =>
    obtain ⟨_, _, _, _, _, succeeds, _⟩ := updateFile_of_no_fault leads verdict options.target
    rw [fault?, succeeds]
  | some fault => rw [fault?, updateFile_of_fault leads verdict]

/-- No file fails exactly when there are no faults. -/
theorem faults_eq_nil_iff :
    options.faults tree files = [] ↔ ∀ path ∈ files, options.fault? tree path = none :=
  List.filterMap_eq_nil_iff

/-- When no file fails, all of them are updated. -/
theorem updatable_of_faults_eq_nil (clean : options.faults tree files = []) :
    options.updatable tree files = files := by
  refine List.filter_eq_self.mpr fun path member => ?_
  rw [faults_eq_nil_iff.mp clean path member]
  rfl

end RunOptions

/-! ## Files do not depend on one another -/

namespace Tracks

variable {options : RunOptions} {start tree : Tree} {files : List Path}

theorem updateAll (tracks : Tracks options.strategy start tree)
    (regular : ∀ path ∈ files, start.isRegularFile path = true) :
    Tracks options.strategy start (options.updateAll tree files) := by
  induction files generalizing tree with
  | nil => exact tracks
  | cons path rest ih =>
    obtain ⟨first, others⟩ := List.forall_mem_cons.mp regular
    exact ih (tracks.updateFile first options.target) others

/-- **A file has the same verdict before and after other files were updated.** -/
theorem fault?_eq (tracks : Tracks options.strategy start tree) {path : Path}
    (regular : start.isRegularFile path = true) :
    options.fault? tree path = options.fault? start path := by
  obtain ⟨place, before, leads, _⟩ := Tree.isRegularFile_iff.mp regular
  obtain ⟨after, again, alike⟩ := tracks.leadsTo leads
  rw [RunOptions.fault?_eq_updateFault? leads, RunOptions.fault?_eq_updateFault? again,
    tracks.updateFault? alike]

/-- A file that cannot be updated alone leaves the tree as it is. -/
theorem updateFile_of_fault? (tracks : Tracks options.strategy start tree) {path : Path}
    (regular : start.isRegularFile path = true) {fault : Fault}
    (fails : options.fault? start path = some fault) :
    LowerComments.updateFile options.target options.strategy tree path = (.error fault, tree) :=
  (tracks.updateFile_fails regular (RunOptions.updateFile_of_fault? fails)).1

end Tracks

/-- The text of the file that a path leads to is written back with its comments in lower case. -/
structure Rewritten (options : RunOptions) (start tree : Tree) (path : Path) (place : Place)
    (file : File) (text : List Char) : Prop where
  locate : start.locate true path = .ok place
  leads : tree.LeadsTo path place file
  isRegular : file.isRegular = true
  unreadable : file.unreadable = none
  unwritable : options.strategy = .inPlace → file.unwritable = none
  decoded : Utf8.decode file.bytes = .ok text
  stored : tree.Stored options.strategy place
    (Utf8.encode (Comment.lowerComments options.target.marker text).text)
    (updateFile options.target options.strategy tree path).2

/-- **A file that can be updated alone is rewritten later.** -/
theorem Tracks.exists_rewritten {options : RunOptions} {start tree : Tree} {path : Path}
    (tracks : Tracks options.strategy start tree) (regular : start.isRegularFile path = true)
    (free : options.fault? start path = none) :
    ∃ place file text, Rewritten options start tree path place file text := by
  obtain ⟨_, alone⟩ := RunOptions.updateFile_of_no_fault? free
  obtain ⟨_, after, updated, _, _, place, file, text, leads, plain, decoded, stored⟩ :=
    tracks.updateFile_succeeds regular alone
  have verdict := no_updateFault?_of_updateFile leads (congrArg Prod.fst updated)
  obtain ⟨readable, _, store⟩ := Tree.updateFault?_eq_none_iff.mp verdict
  refine ⟨place, file, text, (tracks.shape.locate true path).symm.trans leads.locate, leads, plain,
    readable, fun inPlace => ?_, decoded, by rwa [updated]⟩
  rw [inPlace] at store
  exact Option.map_eq_none_iff.mp store

/-! ## Runs over lists of files -/

namespace Progress

variable {options : RunOptions} {start : Tree} {progress : Progress}

/-- How far a run comes over a list of files that are treated by their verdicts on the tree
`start`. -/
def beyond (options : RunOptions) (start : Tree) (progress : Progress) (files : List Path) :
    Progress where
  tree := options.updateAll progress.tree files
  out := progress.out.put (options.processedLines (options.updatable start files))
  err := progress.err.put (options.errorLines (options.faults start files))
  processed := progress.processed + (options.updatable start files).length
  failed := progress.failed + (options.faults start files).length

/-- The writers take all that is reported of these files. -/
structure Takes (options : RunOptions) (start : Tree) (progress : Progress) (files : List Path) :
    Prop where
  out : progress.out.fits (options.processedLines (options.updatable start files)) = true
  err : progress.err.fits (options.errorLines (options.faults start files)) = true

theorem beyond_append (earlier later : List Path) :
    (progress.beyond options start earlier).beyond options start later =
      progress.beyond options start (earlier ++ later) := by
  simp only [beyond, RunOptions.updatable_append, RunOptions.faults_append,
    RunOptions.processedLines_append, RunOptions.errorLines_append, RunOptions.updateAll_append,
    Writer.put_put, List.length_append, Nat.add_assoc]

theorem takes_append (earlier later : List Path) :
    progress.Takes options start (earlier ++ later) ↔
      progress.Takes options start earlier ∧
        (progress.beyond options start earlier).Takes options start later := by
  constructor
  · rintro ⟨out, err⟩
    rw [RunOptions.updatable_append, RunOptions.processedLines_append, Writer.fits_append] at out
    rw [RunOptions.faults_append, RunOptions.errorLines_append, Writer.fits_append] at err
    exact ⟨⟨out.1, err.1⟩, ⟨out.2, err.2⟩⟩
  · rintro ⟨first, second⟩
    refine ⟨?_, ?_⟩
    · rw [RunOptions.updatable_append, RunOptions.processedLines_append, Writer.fits_append]
      exact ⟨first.out, second.out⟩
    · rw [RunOptions.faults_append, RunOptions.errorLines_append, Writer.fits_append]
      exact ⟨first.err, second.err⟩

/-- Nothing is left to do over no files. -/
theorem beyond_nil (takes : progress.Takes options start []) :
    progress.beyond options start [] = progress := by
  have out := Writer.put_of_fits takes.out
  have err := Writer.put_of_fits takes.err
  rw [beyond, out, err]
  simp [RunOptions.updateAll, RunOptions.updatable, RunOptions.faults, RunOptions.processedLines,
    RunOptions.errorLines]

section Steps

variable {path : Path} {fault : Fault}

/-- A file that can be updated alone is updated and reported. -/
theorem advance_of_no_fault? (tracks : Tracks options.strategy start progress.tree)
    (regular : start.isRegularFile path = true) (free : options.fault? start path = none)
    (takes : progress.Takes options start [path]) :
    progress.advance options path = (progress.beyond options start [path], none) := by
  obtain ⟨outcome, alone⟩ := RunOptions.updateFile_of_no_fault? free
  obtain ⟨later, after, updated, named, _⟩ := tracks.updateFile_succeeds regular alone
  have files : options.updatable start [path] = [path] := by
    simp [RunOptions.updatable, free]
  have faults : options.faults start [path] = [] := by
    simp [RunOptions.faults, free]
  have out := takes.out
  have err := Writer.put_of_fits takes.err
  rw [files, RunOptions.processedLines, List.flatMap_singleton] at out
  rw [faults, RunOptions.errorLines, List.flatMap_nil, List.append_nil] at err
  rw [advance, updated, beyond, files, faults, RunOptions.processedLines, RunOptions.errorLines,
    RunOptions.updateAll, List.flatMap_singleton, List.flatMap_nil, err]
  simp [updated, named, out]

/-- A file that cannot be updated alone is reported with its fault if the run is to go on. -/
theorem advance_of_fault? (policy : options.onFailure = .proceed)
    (tracks : Tracks options.strategy start progress.tree)
    (regular : start.isRegularFile path = true) (fails : options.fault? start path = some fault)
    (takes : progress.Takes options start [path]) :
    progress.advance options path = (progress.beyond options start [path], none) := by
  have stopped := tracks.updateFile_of_fault? regular fails
  have files : options.updatable start [path] = [] := by
    simp [RunOptions.updatable, fails]
  have faults : options.faults start [path] = [fault] := by
    simp [RunOptions.faults, fails]
  have out := Writer.put_of_fits takes.out
  have err := takes.err
  rw [files, RunOptions.processedLines, List.flatMap_nil, List.append_nil] at out
  rw [faults, RunOptions.errorLines, List.flatMap_singleton] at err
  rw [advance, stopped, beyond, files, faults, RunOptions.processedLines, RunOptions.errorLines,
    RunOptions.updateAll, List.flatMap_singleton, List.flatMap_nil, out]
  simp [stopped, policy, err]

/-- A file that cannot be updated alone ends the run if the policy is to abort. -/
theorem advance_of_fault?_abort (policy : options.onFailure = .abort)
    (tracks : Tracks options.strategy start progress.tree)
    (regular : start.isRegularFile path = true)
    (fails : options.fault? start path = some fault) :
    progress.advance options path = (progress, some fault) := by
  have stopped := tracks.updateFile_of_fault? regular fails
  rw [advance, stopped]
  simp only [policy]

end Steps

variable {files earlier later : List Path}

theorem advanceAll_append {middle : Progress}
    (first : progress.advanceAll options earlier = (middle, none)) (later : List Path) :
    progress.advanceAll options (earlier ++ later) = middle.advanceAll options later := by
  induction earlier generalizing progress with
  | nil =>
    obtain rfl : progress = middle := congrArg Prod.fst first
    rfl
  | cons path rest ih =>
    rw [advanceAll] at first
    rw [List.cons_append, advanceAll]
    rcases step : progress.advance options path with ⟨next, _ | fault⟩
    · simp only [step] at first
      exact ih first
    · simp only [step] at first
      exact absurd (congrArg Prod.snd first) (by simp)

/-- **A run treats each file by its verdict on the initial tree**, unless one fails and the policy
is to abort. -/
theorem advanceAll_beyond (progress : Progress)
    (tracks : Tracks options.strategy start progress.tree)
    (regular : ∀ path ∈ files, start.isRegularFile path = true)
    (goesOn : options.onFailure = .proceed ∨ options.faults start files = [])
    (takes : progress.Takes options start files) :
    progress.advanceAll options files = (progress.beyond options start files, none) := by
  induction files generalizing progress with
  | nil => rw [advanceAll, beyond_nil takes]
  | cons path rest ih =>
    obtain ⟨here, there⟩ := List.forall_mem_cons.mp regular
    obtain ⟨now, next⟩ := (takes_append [path] rest).mp takes
    have goesOnNext : options.onFailure = .proceed ∨ options.faults start rest = [] :=
      goesOn.imp_right fun clean =>
        RunOptions.faults_eq_nil_iff.mpr fun other member =>
          RunOptions.faults_eq_nil_iff.mp clean other (List.mem_cons_of_mem path member)
    have step : progress.advance options path = (progress.beyond options start [path], none) := by
      cases verdict : options.fault? start path with
      | none => exact advance_of_no_fault? tracks here verdict now
      | some fault =>
        rcases goesOn with policy | clean
        · exact advance_of_fault? policy tracks here verdict now
        · have free := RunOptions.faults_eq_nil_iff.mp clean path List.mem_cons_self
          exact absurd (verdict.symm.trans free) (by simp)
    rw [advanceAll, step]
    simp only
    rw [ih _ (tracks.updateFile here options.target) there goesOnNext next, beyond_append,
      List.singleton_append]

/-- **With the policy to abort, the first file that fails ends the run where it is.** -/
theorem advanceAll_fault (progress : Progress) (policy : options.onFailure = .abort)
    (tracks : Tracks options.strategy start progress.tree) {path : Path}
    (regular : ∀ file ∈ earlier ++ path :: later, start.isRegularFile file = true)
    (clean : options.faults start earlier = []) {fault : Fault}
    (fails : options.fault? start path = some fault)
    (takes : progress.Takes options start earlier) :
    progress.advanceAll options (earlier ++ path :: later) =
      (progress.beyond options start earlier, some fault) := by
  have before : ∀ file ∈ earlier, start.isRegularFile file = true := fun file member =>
    regular file (List.mem_append_left _ member)
  have here := regular path (List.mem_append_right earlier List.mem_cons_self)
  have reached := tracks.updateAll before
  rw [advanceAll_append (advanceAll_beyond progress tracks before (.inr clean) takes), advanceAll,
    advance_of_fault?_abort policy reached here fails]

end Progress

end LowerComments
