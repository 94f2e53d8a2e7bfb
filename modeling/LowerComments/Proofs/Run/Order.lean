import LowerComments.Proofs.Run.Repetition

/-!
# The order of updates does not matter

Several of the files that are updated may be one file under different names, so two
updates do not act on parts of the tree that are apart, and they cannot be swapped as
such steps can. What is true in every order is said place by place instead. A place
that no updated path reaches names the file that it named before
(`Tracks.file?_updateAll_of_not_reachedBy`). A place that is reached holds its initial
text with the comments in lower case, by the idempotence of lower-casing, and its file
can be read and written. Neither depends on the order, and so all orders come to one
tree (`unchanged_updateAll`).

What a path comes to at its turn differs from what it comes to alone in one respect only: a
second name of a file may find no line left to change. The verdict is that on the
initial tree, and the lines are as many as those of the initial text, since lower-casing
moves no line feed (`account_updateFile`).
-/

set_option autoImplicit false

namespace LowerComments

open LowerComments.Comment

/-- What an outcome says whatever was updated before: the path and the number of lines. -/
def Outcome.account (outcome : Outcome) : Path × Nat := (outcome.path, outcome.lines)

/-- What each file comes to when files are updated one after another, also behind one that
failed. -/
def RunOptions.outcomes (options : RunOptions) (tree : Tree) :
    List Path → List (Path × Except Fault Outcome)
  | [] => []
  | path :: rest =>
    let updated := updateFile options.target options.strategy tree path
    (path, updated.1) :: options.outcomes updated.2 rest

/-- Each file has one outcome, in the order of the files. -/
theorem RunOptions.map_fst_outcomes (options : RunOptions) (tree : Tree) (files : List Path) :
    (options.outcomes tree files).map Prod.fst = files := by
  induction files generalizing tree with
  | nil => rfl
  | cons path rest ih => rw [outcomes, List.map_cons, ih]

variable {options : RunOptions} {start tree : Tree} {files order : List Path} {path : Path}
  {place : Place}

/-- The tree after files were updated one after another, some of which may have failed. -/
theorem updated_updateAll (settled : ∀ letter ∈ options.target.marker, Letter.Settled letter)
    (regular : ∀ path ∈ files, start.isRegularFile path = true) :
    Updated options start (options.updatable start files) (options.updateAll start files) := by
  have free : ∀ path ∈ options.updatable start files,
      path ∈ files ∧ options.fault? start path = none := fun path member =>
    (List.mem_filter.mp member).imp_right Option.isNone_iff_eq_none.mp
  have updated := (Updated.initial options start).updateAll settled
    (fun path member => regular path (free path member).1) fun path member => (free path member).2
  rwa [List.nil_append, RunOptions.updateAll_updatable (Tracks.refl _ start) regular] at updated

/-! ## What a path comes to -/

/-- An update that succeeds accounts for the lines of the text that it reads. -/
theorem account_of_rewritten {file : File} {text : List Char}
    (rewritten : Rewritten options start tree path place file text)
    (free : options.fault? tree path = none) :
    (updateFile options.target options.strategy tree path).1.map Outcome.account =
      .ok (path, (lowerComments options.target.marker text).lines) := by
  obtain ⟨outcome, succeeds⟩ := RunOptions.updateFile_of_no_fault? free
  rw [succeeds, outcome_of_updateFile rewritten.leads rewritten.unreadable rewritten.decoded
    succeeds]
  rfl

/-- Texts that are the same in lower case have the same number of lines. -/
theorem lines_eq_of_text_eq {marker left right : List Char}
    (same : (lowerComments marker left).text = (lowerComments marker right).text) :
    (lowerComments marker left).lines = (lowerComments marker right).lines := by
  rw [← lines_lowerComments_lowerComments, same, lines_lowerComments_lowerComments]

/-- **What a path comes to, apart from the lines that change, is the same after any updates.** -/
theorem account_updateFile (settled : ∀ letter ∈ options.target.marker, Letter.Settled letter)
    {done : List Path} (updated : Updated options start done tree)
    (regular : start.isRegularFile path = true) :
    (updateFile options.target options.strategy tree path).1.map Outcome.account =
      (updateFile options.target options.strategy start path).1.map Outcome.account := by
  have tracks := updated.tracks
  have alone := Tracks.refl options.strategy start
  cases verdict : options.fault? start path with
  | some fault =>
    rw [tracks.updateFile_of_fault? regular verdict, alone.updateFile_of_fault? regular verdict]
  | none =>
    obtain ⟨place, initial, first, before⟩ := alone.exists_rewritten regular verdict
    obtain ⟨again, file, text, after⟩ := tracks.exists_rewritten regular verdict
    obtain rfl : place = again := Except.ok.inj (before.locate.symm.trans after.locate)
    have decoded := after.decoded
    rw [File.bytes, if_pos after.isRegular] at decoded
    obtain ⟨initialText, readable, same⟩ :=
      updated.exists_initial_text settled before.leads.file? after.leads.file? decoded
    have decodedFirst := before.decoded
    rw [File.bytes, if_pos before.isRegular, readable] at decodedFirst
    obtain rfl : initialText = first := Except.ok.inj decodedFirst
    rw [account_of_rewritten before verdict,
      account_of_rewritten after ((tracks.fault?_eq regular).trans verdict),
      lines_eq_of_text_eq same]

/-- **At its turn each path comes to what it comes to alone**, apart from the lines that change. -/
theorem account_outcomes (settled : ∀ letter ∈ options.target.marker, Letter.Settled letter)
    (earlier : List Path) (regular : ∀ path ∈ earlier ++ files, start.isRegularFile path = true) :
    (options.outcomes (options.updateAll start earlier) files).map
        (fun item => (item.1, item.2.map Outcome.account)) =
      files.map fun path =>
        (path, (updateFile options.target options.strategy start path).1.map Outcome.account) := by
  induction files generalizing earlier with
  | nil => rfl
  | cons path rest ih =>
    have before : ∀ file ∈ earlier, start.isRegularFile file = true := fun file member =>
      regular file (List.mem_append_left _ member)
    have here := regular path (List.mem_append_right earlier List.mem_cons_self)
    have behind := options.updateAll_append start earlier [path]
    have later := ih (earlier ++ [path])
      (by rwa [List.append_assoc, List.singleton_append])
    rw [behind] at later
    rw [RunOptions.outcomes, List.map_cons, List.map_cons,
      account_updateFile settled (updated_updateAll settled before) here]
    exact congrArg _ later

/-- What a path comes to among others accounts for the same as what it comes to alone. -/
theorem account_of_mem_outcomes (settled : ∀ letter ∈ options.target.marker, Letter.Settled letter)
    (regular : ∀ path ∈ files, start.isRegularFile path = true) {outcome : Except Fault Outcome}
    (listed : (path, outcome) ∈ options.outcomes start files) :
    outcome.map Outcome.account =
      (updateFile options.target options.strategy start path).1.map Outcome.account := by
  have all := account_outcomes settled [] regular
  have mapped : (path, outcome.map Outcome.account) ∈
      (options.outcomes start files).map fun item => (item.1, item.2.map Outcome.account) :=
    List.mem_map_of_mem listed
  rw [show options.outcomes start files = options.outcomes (options.updateAll start []) files from
    rfl, all] at mapped
  obtain ⟨other, _, same⟩ := List.mem_map.mp mapped
  obtain ⟨rfl, accounts⟩ := Prod.mk.inj same
  exact accounts.symm

/-! ## What the updates leave -/

/-- **A place that no updated path reaches names the file that it named before.** -/
theorem Tracks.file?_updateAll_of_not_reachedBy (tracks : Tracks options.strategy start tree)
    (regular : ∀ path ∈ files, start.isRegularFile path = true)
    (apart : ¬ options.strategy.ReachedBy start (options.updatable start files) place) :
    (options.updateAll tree files).file? place = tree.file? place := by
  induction files generalizing tree with
  | nil => rfl
  | cons path rest ih =>
    obtain ⟨here, there⟩ := List.forall_mem_cons.mp regular
    rw [← List.singleton_append, RunOptions.updatable_append] at apart
    have apartRest : ¬ options.strategy.ReachedBy start (options.updatable start rest) place := by
      rintro ⟨other, member, reached⟩
      exact apart ⟨other, List.mem_append_right _ member, reached⟩
    rw [RunOptions.updateAll_cons, ih (tracks.updateFile here options.target) there apartRest]
    cases verdict : options.fault? start path with
    | some fault => rw [tracks.updateFile_of_fault? here verdict]
    | none =>
      obtain ⟨target, _, _, rewritten⟩ := tracks.exists_rewritten here verdict
      refine rewritten.stored.kept place fun reaches => apart ⟨path, ?_, target, rewritten.locate,
        (tracks.reaches_iff target place).mp reaches⟩
      exact List.mem_append_left _ (List.mem_filter.mpr ⟨List.mem_cons_self, by simp [verdict]⟩)

/-- A place that an updated path reaches names a file that can be read and written. -/
theorem lowered_updateAll (settled : ∀ letter ∈ options.target.marker, Letter.Settled letter)
    (regular : ∀ path ∈ files, start.isRegularFile path = true)
    (reached : options.strategy.ReachedBy start (options.updatable start files) place) :
    ∃ file, (options.updateAll start files).file? place = some file ∧
      file.Lowered options.target.marker := by
  obtain ⟨path, member, target, located, reaches⟩ := reached
  obtain ⟨listed, free⟩ := List.mem_filter.mp member
  have tracks := (Tracks.refl options.strategy start).updateAll regular
  obtain ⟨there, file, leads, low⟩ := (Tracks.refl options.strategy start).isLowered_of_mem settled
    regular listed (Option.isNone_iff_eq_none.mp free)
  obtain rfl : there = target :=
    Except.ok.inj (leads.locate.symm.trans ((tracks.shape.locate true path).trans located))
  exact ⟨file, ((tracks.reaches_iff there place).mpr reaches).file?.trans leads.file?, low⟩

/-- The same places are reached by lists of the same paths. -/
theorem reachedBy_updatable_congr (same : ∀ path, path ∈ order ↔ path ∈ files) :
    options.strategy.ReachedBy start (options.updatable start order) place ↔
      options.strategy.ReachedBy start (options.updatable start files) place := by
  simp only [Strategy.ReachedBy, RunOptions.updatable, List.mem_filter, same]

/-- Files that are updated like one file, with the same bytes, are the same if both can be written
or neither. -/
theorem File.Alike.eq_of_content {strategy : Strategy} {before left right : File}
    (leftAlike : File.Alike strategy before left) (rightAlike : File.Alike strategy before right)
    (content : left.content = right.content) (unwritable : left.unwritable = right.unwritable) :
    left = right := by
  have mode := leftAlike.mode.trans rightAlike.mode.symm
  have isRegular := leftAlike.isRegular.trans rightAlike.isRegular.symm
  have unreadable := leftAlike.unreadable.trans rightAlike.unreadable.symm
  cases left
  cases right
  exact File.mk.injEq .. ▸ ⟨content, mode, isRegular, unreadable, unwritable⟩

/-- **A place names the same file after updates of the same paths in any order.** -/
theorem file?_updateAll_congr (settled : ∀ letter ∈ options.target.marker, Letter.Settled letter)
    (regular : ∀ path ∈ files, start.isRegularFile path = true)
    (same : ∀ path, path ∈ order ↔ path ∈ files) (place : Place) :
    (options.updateAll start order).file? place = (options.updateAll start files).file? place := by
  have regularOrder : ∀ path ∈ order, start.isRegularFile path = true := fun path member =>
    regular path ((same path).mp member)
  have updated := updated_updateAll settled regular
  have updatedOrder := updated_updateAll settled regularOrder
  by_cases reached : options.strategy.ReachedBy start (options.updatable start files) place
  · have reachedOrder := (reachedBy_updatable_congr same).mpr reached
    obtain ⟨left, leftFound, leftLow⟩ := lowered_updateAll settled regularOrder reachedOrder
    obtain ⟨right, rightFound, rightLow⟩ := lowered_updateAll settled regular reached
    have there := updated.tracks.shape.file?_isSome place
    rw [rightFound, Option.isSome_some] at there
    obtain ⟨initial, found⟩ := Option.isSome_iff_exists.mp there.symm
    obtain ⟨text, decoded, held⟩ := updated.reached place initial found reached
    obtain ⟨again, decodedAgain, heldOrder⟩ :=
      updatedOrder.reached place initial found reachedOrder
    obtain rfl : text = again := Except.ok.inj (decoded.symm.trans decodedAgain)
    rw [Tree.contentAt, rightFound, Option.map_some] at held
    rw [Tree.contentAt, leftFound, Option.map_some] at heldOrder
    rw [leftFound, rightFound, File.Alike.eq_of_content
      (updatedOrder.tracks.alike place initial left found leftFound)
      (updated.tracks.alike place initial right found rightFound)
      (Option.some.inj (heldOrder.trans held.symm))
      (leftLow.unwritable.trans rightLow.unwritable.symm)]
  · have refl := Tracks.refl options.strategy start
    rw [refl.file?_updateAll_of_not_reachedBy regular reached,
      refl.file?_updateAll_of_not_reachedBy regularOrder
        (mt (reachedBy_updatable_congr same).mp reached)]

/-- **Updates of the same paths in any order leave the same tree.** -/
theorem unchanged_updateAll (settled : ∀ letter ∈ options.target.marker, Letter.Settled letter)
    (regular : ∀ path ∈ files, start.isRegularFile path = true)
    (same : ∀ path, path ∈ order ↔ path ∈ files) :
    Unchanged (options.updateAll start files) (options.updateAll start order) := by
  have regularOrder : ∀ path ∈ order, start.isRegularFile path = true := fun path member =>
    regular path ((same path).mp member)
  have refl := Tracks.refl options.strategy start
  refine ⟨SameSight.of_shape ((refl.updateAll regular).shape.symm.trans
    (refl.updateAll regularOrder).shape) (file?_updateAll_congr settled regular same),
    fun left right => ?_⟩
  have replaces (place : Place) :
      options.Replaces start order place ↔ options.Replaces start files place := by
    simp only [RunOptions.Replaces, same]
  rw [refl.sameFile_updateAll regular, refl.sameFile_updateAll regularOrder, replaces, replaces]

/-- **The order in which discovered files are updated does not matter.** Updating them in any
order leaves the same tree as updating them in the order of discovery. Each path has one outcome,
and it is the same in both orders: the path fails with the same fault, or it is updated with the
same number of lines. -/
theorem updateAll_perm (options : RunOptions) (tree : Tree) (root : Path)
    (settled : ∀ letter ∈ options.target.marker, Letter.Settled letter) {files order : List Path}
    (found : discover tree options.target root = .ok files) (perm : order.Perm files) :
    Unchanged (options.updateAll tree files) (options.updateAll tree order) ∧
      (options.outcomes tree files).map Prod.fst = files ∧
      (options.outcomes tree order).map Prod.fst = order ∧ order.Nodup ∧
      ∀ path here there, (path, here) ∈ options.outcomes tree files →
        (path, there) ∈ options.outcomes tree order →
        there.map Outcome.account = here.map Outcome.account := by
  have regular : ∀ path ∈ files, tree.isRegularFile path = true := fun _ member =>
    isRegularFile_of_mem_discover found member
  have regularOrder : ∀ path ∈ order, tree.isRegularFile path = true := fun path member =>
    regular path (perm.mem_iff.mp member)
  refine ⟨unchanged_updateAll settled regular fun path => perm.mem_iff,
    RunOptions.map_fst_outcomes options tree files, RunOptions.map_fst_outcomes options tree order,
    perm.nodup_iff.mpr (nodup_discover found), fun path here there listed listedOrder => ?_⟩
  rw [account_of_mem_outcomes settled regular listed,
    account_of_mem_outcomes settled regularOrder listedOrder]

/-- A file, a link to it and a file that is not a text, in the order of discovery and backwards.
The link comes to the same, although it is the first to find a line to change when it comes before
the file. -/
theorem updateAll_perm_linkedTree :
    let backwards := [Bytes.ofString "./c.lua", Bytes.ofString "./b.lua", Bytes.ofString "./a.lua"]
    let forwards := backwards.reverse
    Unchanged (RunOptions.updateAll {} linkedTree forwards)
        (RunOptions.updateAll {} linkedTree backwards) ∧
      (Bytes.ofString "./b.lua", .ok ⟨Bytes.ofString "./b.lua", 1, 0⟩) ∈
        RunOptions.outcomes {} linkedTree forwards ∧
      (Bytes.ofString "./b.lua", .ok ⟨Bytes.ofString "./b.lua", 1, 1⟩) ∈
        RunOptions.outcomes {} linkedTree backwards := by
  intro backwards forwards
  have found : discover linkedTree .lua (Bytes.ofString ".") = .ok forwards := rfl
  obtain ⟨unchanged, _⟩ := updateAll_perm {} linkedTree (Bytes.ofString ".")
    Letter.settled_hyphens found (List.reverse_perm backwards).symm
  exact ⟨unchanged, by decide +kernel, by decide +kernel⟩

end LowerComments
