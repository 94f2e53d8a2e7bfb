import LowerComments.Proofs.Run.Contents
import LowerComments.Proofs.Run.Lockstep
import LowerComments.Proofs.Tree.Sight

/-!
# Runs are idempotent

A second run right after a first one finds the same files with the same verdicts, since the
tree that the first one leaves tracks the initial one. By the lockstep of the two runs it
comes to the same files, reports the same and ends in the same result, also when the first
run was ended by a fault or by a report that could not be written.

What is left to show is that updating these files once more changes nothing. A file whose
update succeeded is in lower case from then on (`File.Lowered`): it can be read and written,
and its text is what lower-casing makes of it. Writing back such a file gives the same file
in either way (`File.Lowered.rewrite_eq`), so no later update of any name changes what one
sees of it. This is kept by every update (`Tracks.isLowered_updateAll`), and a run over files
in lower case leaves the tree as it looks (`Tracks.sameSight_updateAll`).
-/

set_option autoImplicit false

namespace LowerComments

open LowerComments.Comment

/-! ## Files in lower case -/

/-- A file that can be read and written, with a text whose comments are in lower case. -/
structure File.Lowered (marker : List Char) (file : File) : Prop where
  isRegular : file.isRegular = true
  unreadable : file.unreadable = none
  unwritable : file.unwritable = none
  text : ∃ text, file.content = Utf8.encode text ∧ (lowerComments marker text).text = text

namespace File.Lowered

variable {marker text : List Char} {file : File}

/-- **Writing back a file in lower case gives the same file**, in either way. -/
theorem rewrite_eq (lowered : file.Lowered marker) (strategy : Strategy)
    (decoded : Utf8.decode file.bytes = .ok text) :
    strategy.rewrite (Utf8.encode (lowerComments marker text).text) file = file := by
  obtain ⟨held, content, fixed⟩ := lowered.text
  rw [File.bytes, if_pos lowered.isRegular, content, Utf8.decode_encode] at decoded
  obtain rfl : held = text := Except.ok.inj decoded
  have inPlace : Strategy.rewrite .inPlace (Utf8.encode held) file = file := by
    rw [Strategy.rewrite, Tree.withContent, if_pos lowered.isRegular, ← content]
  rw [fixed]
  cases strategy with
  | inPlace => exact inPlace
  | atomic =>
    rw [← rewrite_inPlace_eq_atomic lowered.isRegular lowered.unreadable lowered.unwritable]
    exact inPlace

/-- A file that was updated is in lower case, for a marker of settled characters. -/
theorem of_rewrite (settled : ∀ letter ∈ marker, Letter.Settled letter) {strategy : Strategy}
    (regular : file.isRegular = true) (readable : file.unreadable = none)
    (writable : strategy = .inPlace → file.unwritable = none) (text : List Char) :
    (strategy.rewrite (Utf8.encode (lowerComments marker text).text) file).Lowered marker := by
  have fixed : ∃ lowered,
      Utf8.encode (lowerComments marker text).text = Utf8.encode lowered ∧
        (lowerComments marker lowered).text = lowered :=
    ⟨_, rfl, text_lowerComments_lowerComments settled text⟩
  cases strategy with
  | inPlace =>
    rw [Strategy.rewrite, Tree.withContent, if_pos regular]
    exact ⟨regular, readable, writable rfl, fixed⟩
  | atomic => exact ⟨rfl, rfl, rfl, fixed⟩

end File.Lowered

/-! ## Updates and files in lower case -/

namespace Tree

/-- The path leads to a file in lower case. -/
def IsLowered (tree : Tree) (marker : List Char) (path : Path) : Prop :=
  ∃ place file, tree.LeadsTo path place file ∧ file.Lowered marker

variable {tree after : Tree} {strategy : Strategy} {marker text : List Char} {place other : Place}
  {file held : File}

/-- No update changes a file in lower case. -/
theorem Stored.file?_of_lowered
    (stored : tree.Stored strategy place (Utf8.encode (lowerComments marker text).text) after)
    (found : tree.file? place = some file) (decoded : Utf8.decode file.bytes = .ok text)
    (there : tree.file? other = some held) (lowered : held.Lowered marker) :
    after.file? other = some held := by
  by_cases reaches : strategy.Reaches tree place other
  · obtain rfl : held = file :=
      Option.some.inj (there.symm.trans (reaches.file?.trans found))
    rw [stored.reached other reaches, there, Option.map_some, lowered.rewrite_eq strategy decoded]
  · rw [stored.kept other reaches, there]

/-- Updating a file in lower case leaves the tree as it looks. -/
theorem Stored.sameSight
    (stored : tree.Stored strategy place (Utf8.encode (lowerComments marker text).text) after)
    (found : tree.file? place = some file) (decoded : Utf8.decode file.bytes = .ok text)
    (lowered : file.Lowered marker) : SameSight tree after := by
  refine SameSight.of_shape stored.shape fun other => ?_
  by_cases reaches : strategy.Reaches tree place other
  · have there := reaches.file?.trans found
    rw [stored.file?_of_lowered found decoded there lowered, there]
  · exact stored.kept other reaches

end Tree

namespace Tracks

variable {options : RunOptions} {start tree : Tree} {files : List Path} {path other : Path}

/-- An update keeps the files in lower case. -/
theorem isLowered_updateFile (tracks : Tracks options.strategy start tree)
    (regular : start.isRegularFile path = true)
    (lowered : tree.IsLowered options.target.marker other) :
    (LowerComments.updateFile options.target options.strategy tree path).2.IsLowered
      options.target.marker other := by
  cases verdict : options.fault? start path with
  | some fault =>
    rw [tracks.updateFile_of_fault? regular verdict]
    exact lowered
  | none =>
    obtain ⟨_, _, _, rewritten⟩ := tracks.exists_rewritten regular verdict
    obtain ⟨place, held, there, low⟩ := lowered
    exact ⟨place, held, ⟨(rewritten.stored.shape.locate true other).trans there.locate,
      rewritten.stored.file?_of_lowered rewritten.leads.file? rewritten.decoded there.file? low⟩,
      low⟩

/-- A file is in lower case once it was updated. -/
theorem isLowered_of_updateFile (settled : ∀ letter ∈ options.target.marker, Letter.Settled letter)
    (tracks : Tracks options.strategy start tree) (regular : start.isRegularFile path = true)
    (free : options.fault? start path = none) :
    (LowerComments.updateFile options.target options.strategy tree path).2.IsLowered
      options.target.marker path := by
  obtain ⟨place, file, text, rewritten⟩ := tracks.exists_rewritten regular free
  refine ⟨place, _, ⟨(rewritten.stored.shape.locate true path).trans rewritten.leads.locate, ?_⟩,
    File.Lowered.of_rewrite settled rewritten.isRegular rewritten.unreadable rewritten.unwritable
      text⟩
  rw [rewritten.stored.reached place (Tree.reaches_self rewritten.leads.file? _),
    rewritten.leads.file?, Option.map_some]

/-- Updates keep the files in lower case. -/
theorem isLowered_updateAll (tracks : Tracks options.strategy start tree)
    (regular : ∀ path ∈ files, start.isRegularFile path = true)
    (lowered : tree.IsLowered options.target.marker other) :
    (options.updateAll tree files).IsLowered options.target.marker other := by
  induction files generalizing tree with
  | nil => exact lowered
  | cons path rest ih =>
    obtain ⟨here, there⟩ := List.forall_mem_cons.mp regular
    exact ih (tracks.updateFile here _) there (tracks.isLowered_updateFile here lowered)

/-- **After the updates all files that did not fail are in lower case.** -/
theorem isLowered_of_mem (settled : ∀ letter ∈ options.target.marker, Letter.Settled letter)
    (tracks : Tracks options.strategy start tree)
    (regular : ∀ path ∈ files, start.isRegularFile path = true) (member : path ∈ files)
    (free : options.fault? start path = none) :
    (options.updateAll tree files).IsLowered options.target.marker path := by
  induction files generalizing tree with
  | nil => exact absurd member List.not_mem_nil
  | cons first rest ih =>
    obtain ⟨here, there⟩ := List.forall_mem_cons.mp regular
    have tracksNext := tracks.updateFile here options.target
    rcases List.mem_cons.mp member with rfl | later
    · exact tracksNext.isLowered_updateAll there
        (tracks.isLowered_of_updateFile settled here free)
    · exact ih tracksNext there later

/-- Updating a file in lower case leaves the tree as it looks. -/
theorem sameSight_updateFile (tracks : Tracks options.strategy start tree)
    (same : SameSight start tree) (regular : start.isRegularFile path = true)
    (lowered : options.fault? start path = none → start.IsLowered options.target.marker path) :
    SameSight start (LowerComments.updateFile options.target options.strategy tree path).2 := by
  cases verdict : options.fault? start path with
  | some fault =>
    rw [tracks.updateFile_of_fault? regular verdict]
    exact same
  | none =>
    obtain ⟨place, file, _, rewritten⟩ := tracks.exists_rewritten regular verdict
    obtain ⟨first, held, leads, low⟩ := lowered verdict
    obtain rfl : place = first := Except.ok.inj (rewritten.locate.symm.trans leads.locate)
    have there := (same.file? place).symm.trans rewritten.leads.file?
    obtain rfl : file = held := Option.some.inj (there.symm.trans leads.file?)
    exact same.trans (rewritten.stored.sameSight rewritten.leads.file? rewritten.decoded low)

/-- **Updating files in lower case leaves the tree as it looks**, one after another. -/
theorem sameSight_updateAll (tracks : Tracks options.strategy start tree)
    (same : SameSight start tree) (regular : ∀ path ∈ files, start.isRegularFile path = true)
    (lowered : ∀ path ∈ files, options.fault? start path = none →
      start.IsLowered options.target.marker path) :
    SameSight start (options.updateAll tree files) := by
  induction files generalizing tree with
  | nil => exact same
  | cons path rest ih =>
    obtain ⟨here, there⟩ := List.forall_mem_cons.mp regular
    obtain ⟨low, lowRest⟩ := List.forall_mem_cons.mp lowered
    exact ih (tracks.updateFile here _) (tracks.sameSight_updateFile same here low) there lowRest

/-- The same places are given files of their own, whether the verdicts are taken before or
after earlier updates. -/
theorem replaces_iff (tracks : Tracks options.strategy start tree)
    (regular : ∀ path ∈ files, start.isRegularFile path = true) (place : Place) :
    options.Replaces tree files place ↔ options.Replaces start files place := by
  refine and_congr_right fun _ => exists_congr fun path => and_congr_right fun member => ?_
  rw [tracks.fault?_eq (regular path member), tracks.shape.locate]

end Tracks

/-! ## Whole runs -/

section Runs

variable {options : RunOptions} {tree : Tree} {root path : Path} {out err : Writer}

/-- A file that a run updates is in lower case after the run. -/
theorem isLowered_run (settled : ∀ letter ∈ options.target.marker, Letter.Settled letter)
    (updated : (path, none) ∈ options.record tree root out err) :
    (run options tree root out err).tree.IsLowered options.target.marker path := by
  rw [run_tree]
  exact (Tracks.refl _ tree).isLowered_of_mem settled
    (fun path => RunOptions.isRegularFile_of_mem_record) (List.mem_map_of_mem updated)
    (RunOptions.mem_record (Tracks.refl _ tree) updated).2.symm

/-- **A run leaves the tree as it looks** if the files that it updates are in lower case. -/
theorem sameSight_run (lowered : ∀ path, (path, none) ∈ options.record tree root out err →
      tree.IsLowered options.target.marker path) :
    SameSight tree (run options tree root out err).tree := by
  rw [run_tree]
  refine (Tracks.refl _ tree).sameSight_updateAll (SameSight.refl tree)
    (fun path => RunOptions.isRegularFile_of_mem_record) fun path member free => ?_
  obtain ⟨⟨named, verdict⟩, listed, rfl⟩ := List.mem_map.mp member
  obtain ⟨_, same⟩ := RunOptions.mem_record (Tracks.refl _ tree) listed
  rw [same.trans free] at listed
  exact lowered named listed

end Runs

/-- **Runs are idempotent.** A second run with the same arguments right after the first one ends
in the same result with the same reports and leaves the tree unchanged, however the first run
ended. After a first run without faults, a run over the same directory with any policy and any
strategy leaves the tree as it looks. -/
theorem run_run (options : RunOptions) (tree : Tree) (root : Path) (out err : Writer)
    (settled : ∀ letter ∈ options.target.marker, Letter.Settled letter) :
    let first := run options tree root out err
    let second := run options first.tree root out err
    second.result = first.result ∧ second.out = first.out ∧ second.err = first.err ∧
      Unchanged first.tree second.tree ∧
      ∀ summary, first.result = .ok summary →
        ∀ (others : RunOptions) (out' err' : Writer), others.target = options.target →
          SameSight first.tree (run others first.tree root out' err').tree := by
  intro first second
  have tracks : Tracks options.strategy tree first.tree := tracks_run options tree root out err
  obtain ⟨result, outs, errs, records⟩ := run_lockstep rfl rfl rfl (Tracks.refl _ tree) tracks
    fun path verdict again here there =>
      (RunOptions.mem_record tracks there).2.trans
        (RunOptions.mem_record (Tracks.refl _ tree) here).2.symm
  refine ⟨result, outs, errs, ⟨sameSight_run fun path updated => ?_, fun left right => ?_⟩,
    fun summary succeeds others out' err' target => sameSight_run fun path updated => ?_⟩
  · rw [records] at updated
    exact isLowered_run settled updated
  · -- The second run replaces the same names, and these already have files of their own.
    have once := sameFile_run options tree root out err left right
    have twice := sameFile_run options first.tree root out err left right
    rw [records, tracks.replaces_iff fun path => RunOptions.isRegularFile_of_mem_record,
      tracks.replaces_iff fun path => RunOptions.isRegularFile_of_mem_record] at twice
    exact twice.trans (and_iff_left_iff_imp.mpr fun shared => (once.mp shared).2)
  · obtain ⟨files, found, all⟩ := record_of_ok succeeds
    obtain ⟨discovered, again, among⟩ := RunOptions.mem_discover updated
    rw [target, tracks.discover, found] at again
    obtain rfl := Except.ok.inj again
    rw [target]
    refine isLowered_run settled ?_
    rw [all]
    exact List.mem_map_of_mem among

/-- A run in which one file fails, and one over the other two files that is repeated with the
other strategy. -/
theorem run_run_linkedTree :
    let failing := run { onFailure := .proceed } linkedTree (Bytes.ofString ".") {} {}
    let clean := run {} (linkedTree.removeEntry [Bytes.ofString "c.lua"]) (Bytes.ofString ".") {} {}
    Unchanged failing.tree
        (run { onFailure := .proceed } failing.tree (Bytes.ofString ".") {} {}).tree ∧
      SameSight clean.tree
        (run { strategy := .atomic } clean.tree (Bytes.ofString ".") {} {}).tree := by
  intro failing clean
  obtain ⟨_, _, _, unchanged, _⟩ := run_run { onFailure := .proceed } linkedTree
    (Bytes.ofString ".") {} {} Letter.settled_hyphens
  obtain ⟨_, _, _, _, again⟩ := run_run {} (linkedTree.removeEntry [Bytes.ofString "c.lua"])
    (Bytes.ofString ".") {} {} Letter.settled_hyphens
  have succeeds : clean.result = .ok ⟨2, 2, 0⟩ := by decide +kernel
  exact ⟨unchanged, again _ succeeds { strategy := .atomic } {} {} rfl⟩

end LowerComments
