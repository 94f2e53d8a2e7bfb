import LowerComments.Proofs.Run.Reports
import Mathlib.Data.List.TakeWhile

/-!
# How a run ends

When the writers take all lines, a run is told by the verdicts on the discovered files
alone: which files are updated (`RunOptions.processed`), which faults it reports by itself
(`RunOptions.reported`) and in what it results (`RunOptions.conclusion`). `run_eq` puts the
whole run together from these, for both policies at once. It succeeds exactly when every
file can be updated alone (`RunOptions.conclusion_eq_ok_iff`).
-/

set_option autoImplicit false

namespace LowerComments

/-! ## The files that a run updates -/

namespace RunOptions

variable {options : RunOptions} {tree : Tree} {files : List Path}

/-- The files that a run updates, in their order. -/
def processed (options : RunOptions) (tree : Tree) (files : List Path) : List Path :=
  match options.onFailure with
  | .abort => files.takeWhile fun path => (options.fault? tree path).isNone
  | .proceed => options.updatable tree files

theorem mem_of_mem_processed {path : Path} (member : path ∈ options.processed tree files) :
    path ∈ files ∧ options.fault? tree path = none := by
  rw [processed] at member
  cases policy : options.onFailure with
  | abort =>
    rw [policy] at member
    have free := List.all_eq_true.mp List.all_takeWhile path member
    exact ⟨List.takeWhile_subset _ member, Option.isNone_iff_eq_none.mp free⟩
  | proceed =>
    rw [policy] at member
    obtain ⟨listed, free⟩ := List.mem_filter.mp member
    exact ⟨listed, Option.isNone_iff_eq_none.mp free⟩

/-- When no file fails, all of them are updated with either policy. -/
theorem processed_of_faults_eq_nil (clean : options.faults tree files = []) :
    options.processed tree files = files := by
  rw [processed]
  cases options.onFailure with
  | abort =>
    exact List.takeWhile_eq_self_iff.mpr fun path member =>
      Option.isNone_iff_eq_none.mpr (faults_eq_nil_iff.mp clean path member)
  | proceed => exact updatable_of_faults_eq_nil clean

/-- When some file fails there is a first one, and a run that aborts updates the files in front
of it. -/
theorem exists_first_fault (policy : options.onFailure = .abort)
    (failing : options.faults tree files ≠ []) :
    ∃ path later fault, files = options.processed tree files ++ path :: later ∧
      options.faults tree (options.processed tree files) = [] ∧
      options.fault? tree path = some fault ∧
      options.faults tree files = fault :: options.faults tree later := by
  have parts := List.takeWhile_append_dropWhile (l := files)
    (p := fun path => (options.fault? tree path).isNone)
  have clean : options.faults tree (options.processed tree files) = [] :=
    faults_eq_nil_iff.mpr fun path member => (mem_of_mem_processed member).2
  have front : options.processed tree files =
      files.takeWhile fun path => (options.fault? tree path).isNone := by
    rw [processed, policy]
  rw [← front] at parts
  cases rest : files.dropWhile fun path => (options.fault? tree path).isNone with
  | nil =>
    rw [rest, List.append_nil] at parts
    exact absurd (parts ▸ clean) failing
  | cons path later =>
    rw [rest] at parts
    have stuck := List.head?_dropWhile_not (fun path => (options.fault? tree path).isNone) files
    rw [rest] at stuck
    cases verdict : options.fault? tree path with
    | none => simp [verdict] at stuck
    | some fault =>
      refine ⟨path, later, fault, parts.symm, clean, verdict, ?_⟩
      conv_lhs => rw [← parts]
      rw [faults_append, clean, List.nil_append]
      exact List.filterMap_cons_some verdict

/-- Files that fail leave the tree as it is. -/
theorem updateAll_updatable {start : Tree} (tracks : Tracks options.strategy start tree)
    (regular : ∀ path ∈ files, start.isRegularFile path = true) :
    options.updateAll tree (options.updatable start files) = options.updateAll tree files := by
  induction files generalizing tree with
  | nil => rfl
  | cons path rest ih =>
    obtain ⟨here, there⟩ := List.forall_mem_cons.mp regular
    have others := ih (tracks.updateFile here options.target) there
    cases verdict : options.fault? start path with
    | none =>
      have first : options.updatable start (path :: rest) =
          path :: options.updatable start rest := by
        simp [updatable, verdict]
      rw [first]
      exact others
    | some fault =>
      have skipped : options.updatable start (path :: rest) = options.updatable start rest := by
        simp [updatable, verdict]
      have stays := tracks.updateFile_of_fault? here verdict
      rw [stays] at others
      rw [skipped, updateAll_cons, stays]
      exact others

/-- The faults that a run reports by itself. A run that aborts leaves its fault to the caller. -/
def reported (options : RunOptions) (tree : Tree) (files : List Path) : List Fault :=
  match options.onFailure with
  | .abort => []
  | .proceed => options.faults tree files

/-- In what a run over these files results: the first fault decides, or the number of them. -/
def conclusion (options : RunOptions) (tree : Tree) (files : List Path) :
    Except Fault Summary :=
  match options.faults tree files with
  | [] => .ok ⟨files.length, files.length, 0⟩
  | first :: others =>
    match options.onFailure with
    | .abort => .error first
    | .proceed => .error (.failed (others.length + 1) files.length)

/-- **A run succeeds exactly when no file fails**, and then it has processed all of them. -/
theorem conclusion_eq_ok_iff {summary : Summary} :
    options.conclusion tree files = .ok summary ↔
      options.faults tree files = [] ∧ summary = ⟨files.length, files.length, 0⟩ := by
  rw [conclusion]
  cases options.faults tree files with
  | nil => simp [eq_comm]
  | cons first others => cases options.onFailure <;> simp

/-- **A run fails with its first fault, or it goes on and fails with the number of them.** -/
theorem conclusion_eq_error {fault : Fault} (fails : options.conclusion tree files = .error fault) :
    (options.onFailure = .abort ∧ options.reported tree files = [] ∧
      ∃ path later, files = options.processed tree files ++ path :: later ∧
        options.faults tree (options.processed tree files) = [] ∧
        options.fault? tree path = some fault) ∨
    (options.onFailure = .proceed ∧ options.reported tree files = options.faults tree files ∧
      options.processed tree files = options.updatable tree files ∧
      options.faults tree files ≠ [] ∧
      fault = .failed (options.faults tree files).length files.length) := by
  have failing : options.faults tree files ≠ [] := fun clean => by
    rw [conclusion, clean] at fails
    exact absurd fails (by simp)
  cases policy : options.onFailure with
  | abort =>
    obtain ⟨path, later, first, parts, clean, verdict, faults⟩ := exists_first_fault policy failing
    rw [conclusion, faults, policy] at fails
    obtain rfl : first = fault := Except.error.inj fails
    exact .inl ⟨rfl, by rw [reported, policy], path, later, parts, clean, verdict⟩
  | proceed =>
    obtain ⟨first, others, faults⟩ := List.exists_cons_of_ne_nil failing
    rw [conclusion, faults, policy] at fails
    refine .inr ⟨rfl, by rw [reported, policy], by rw [processed, policy], failing, ?_⟩
    rw [faults, List.length_cons]
    exact (Except.error.inj fails).symm

theorem reported_of_faults_eq_nil (clean : options.faults tree files = []) :
    options.reported tree files = [] := by
  rw [reported, clean]
  cases options.onFailure <;> rfl

/-- No file fails exactly when each of them can be updated alone. -/
theorem faults_eq_nil_iff_updates :
    options.faults tree files = [] ↔
      ∀ path ∈ files, ∃ outcome,
        (updateFile options.target options.strategy tree path).1 = .ok outcome := by
  rw [faults_eq_nil_iff]
  refine forall₂_congr fun path _ => ⟨updateFile_of_no_fault?, ?_⟩
  rintro ⟨outcome, succeeds⟩
  rw [fault?, succeeds]

end RunOptions

/-! ## The run -/

variable {tree : Tree} {root : Path} {out err : Writer} {files : List Path}

/-- **A run over discovered files is put together from their verdicts.** -/
theorem run_eq (options : RunOptions) (found : discover tree options.target root = .ok files)
    (outTakes : out.fits (options.processedLines (options.updatable tree files)) = true)
    (errTakes : err.fits (options.errorLines (options.faults tree files)) = true) :
    run options tree root out err =
      { result := options.conclusion tree files
        tree := options.updateAll tree (options.processed tree files)
        out := { out with
          written := out.written ++ options.processedLines (options.processed tree files) }
        err := { err with
          written := err.written ++ options.errorLines (options.reported tree files) } } := by
  have regular : ∀ path ∈ files, tree.isRegularFile path = true := fun _ member =>
    isRegularFile_of_mem_discover found member
  by_cases clean : options.faults tree files = []
  · rw [run_of_goesOn options found (.inr clean) outTakes errTakes, RunOptions.conclusion,
      RunOptions.processed_of_faults_eq_nil clean, RunOptions.updatable_of_faults_eq_nil clean,
      RunOptions.reported_of_faults_eq_nil clean, clean]
    rfl
  · cases policy : options.onFailure with
    | proceed =>
      have processed : options.processed tree files = options.updatable tree files := by
        rw [RunOptions.processed, policy]
      have reported : options.reported tree files = options.faults tree files := by
        rw [RunOptions.reported, policy]
      obtain ⟨first, others, faults⟩ := List.exists_cons_of_ne_nil clean
      rw [run_of_goesOn options found (.inl policy) outTakes errTakes, processed, reported,
        RunOptions.updateAll_updatable (Tracks.refl _ tree) regular, RunOptions.conclusion, policy,
        if_neg clean, faults]
      rfl
    | abort =>
      obtain ⟨path, later, fault, parts, free, fails, first⟩ :=
        RunOptions.exists_first_fault policy clean
      have reported : options.reported tree files = [] := by
        rw [RunOptions.reported, policy]
      rw [run_of_fault options found parts policy free fails outTakes errTakes, reported,
        RunOptions.conclusion, policy, first, RunOptions.errorLines, List.flatMap_nil,
        List.append_nil]

end LowerComments
