import LowerComments.Proofs.Comment.Idempotence
import LowerComments.Proofs.Run.Ending
import LowerComments.Proofs.Run.Lockstep

/-!
# What a run leaves on the disk

A run reports the files that it updates (`RunOptions.processed`). A place is reached
when one of them leads to it, in the way in which the strategy reaches places. The tree
after the run differs from the one before only in the bytes at the places that are
reached, and there the comments of the initial text are in lower case.

Several of the files may lead to one place, so that it is updated more than once. By
the idempotence of lower-casing, every time after the first leaves the bytes as they
are. The invariant `Updated` says this of every beginning of the run. So each of the files
reads as its own initial text with the comments in lower case (`lowersComments_updateAll`).

A run in place leaves every file under all of its names. A run that replaces gives each
name that it updates a file of its own, and apart from these names share their files as
before (`sameFile_run`).
-/

set_option autoImplicit false

namespace LowerComments

open LowerComments.Comment

/-! ## Places that are reached -/

/-- One of these paths leads to bytes that the place sees. -/
def Strategy.ReachedBy (strategy : Strategy) (tree : Tree) (paths : List Path) (place : Place) :
    Prop :=
  ∃ path ∈ paths, ∃ target, tree.locate true path = .ok target ∧
    strategy.Reaches tree target place

/-- A last path that leads somewhere reaches what can be reached from there. -/
theorem Strategy.reachedBy_append_singleton {strategy : Strategy} {tree : Tree} {path : Path}
    {target : Place} (located : tree.locate true path = .ok target) (paths : List Path)
    (place : Place) :
    strategy.ReachedBy tree (paths ++ [path]) place ↔
      strategy.ReachedBy tree paths place ∨ strategy.Reaches tree target place := by
  constructor
  · rintro ⟨other, member, reached, there, reaches⟩
    rcases List.mem_append.mp member with before | last
    · exact .inl ⟨other, before, reached, there, reaches⟩
    · obtain rfl := List.mem_singleton.mp last
      obtain rfl : target = reached := Except.ok.inj (located.symm.trans there)
      exact .inr reaches
  · rintro (⟨other, before, reached, there, reaches⟩ | reaches)
    · exact ⟨other, List.mem_append_left _ before, reached, there, reaches⟩
    · exact ⟨path, List.mem_append_right _ List.mem_cons_self, target, located, reaches⟩

/-! ## Every beginning of a run -/

/-- The tree after these files were updated: the places reached hold their initial text with its
comments in lower case, and the others hold their initial bytes. -/
structure Updated (options : RunOptions) (start : Tree) (paths : List Path) (tree : Tree) :
    Prop where
  tracks : Tracks options.strategy start tree
  reached : ∀ place file, start.file? place = some file →
    options.strategy.ReachedBy start paths place → ∃ text, Utf8.decode file.content = .ok text ∧
      tree.contentAt place = some (Utf8.encode (lowerComments options.target.marker text).text)
  kept : ∀ place, ¬ options.strategy.ReachedBy start paths place →
    tree.contentAt place = start.contentAt place

namespace Updated

variable {options : RunOptions} {start tree : Tree} {done : List Path}

theorem initial (options : RunOptions) (tree : Tree) : Updated options tree [] tree where
  tracks := Tracks.refl options.strategy tree
  reached _ _ _ reachedBy := by
    obtain ⟨path, member, _⟩ := reachedBy
    exact absurd member List.not_mem_nil
  kept _ _ := rfl

/-- A text found at a place has the lower case of the initial text there. A place that was
reached before has been through one pass, and a second pass does not change it. -/
theorem exists_initial_text (settled : ∀ letter ∈ options.target.marker, Letter.Settled letter)
    (updated : Updated options start done tree) {place : Place} {initial file : File}
    (found : start.file? place = some initial) (here : tree.file? place = some file)
    {text : List Char} (decoded : Utf8.decode file.content = .ok text) :
    ∃ first, Utf8.decode initial.content = .ok first ∧
      (lowerComments options.target.marker text).text =
        (lowerComments options.target.marker first).text := by
  have content : tree.contentAt place = some file.content := by
    rw [Tree.contentAt, here, Option.map_some]
  by_cases before : options.strategy.ReachedBy start done place
  · obtain ⟨first, readable, contents⟩ := updated.reached place initial found before
    rw [Option.some.inj (content.symm.trans contents), Utf8.decode_encode] at decoded
    refine ⟨first, readable, ?_⟩
    rw [← Except.ok.inj decoded, text_lowerComments_lowerComments settled]
  · have contents := updated.kept place before
    rw [content, Tree.contentAt, found, Option.map_some] at contents
    rw [Option.some.inj contents] at decoded
    exact ⟨text, decoded, rfl⟩

/-- **Updating one more file keeps the invariant**, whether or not its bytes were updated
before. -/
theorem step (settled : ∀ letter ∈ options.target.marker, Letter.Settled letter)
    (updated : Updated options start done tree) {path : Path}
    (regular : start.isRegularFile path = true) (free : options.fault? start path = none) :
    Updated options start (done ++ [path])
      (updateFile options.target options.strategy tree path).2 := by
  obtain ⟨target, file, text, rewritten⟩ := updated.tracks.exists_rewritten regular free
  have decoded := rewritten.decoded
  rw [File.bytes, if_pos rewritten.isRegular] at decoded
  have untouched : ∀ place, ¬ options.strategy.Reaches start target place →
      (updateFile options.target options.strategy tree path).2.contentAt place =
        tree.contentAt place := by
    intro place apart
    rw [Tree.contentAt, Tree.contentAt,
      rewritten.stored.kept place (mt (updated.tracks.reaches_iff target place).mp apart)]
  refine ⟨updated.tracks.updateFile regular options.target,
    fun place initial found reachedBy => ?_, fun place apart => ?_⟩
  · by_cases now : options.strategy.Reaches start target place
    · have reaches := (updated.tracks.reaches_iff target place).mpr now
      have here : tree.file? place = some file := reaches.file?.trans rewritten.leads.file?
      obtain ⟨first, readable, same⟩ := updated.exists_initial_text settled found here decoded
      refine ⟨first, readable, ?_⟩
      rw [Tree.contentAt, rewritten.stored.reached place reaches, here, Option.map_some,
        Option.map_some, content_rewrite options.strategy rewritten.isRegular, same]
    · have before := ((Strategy.reachedBy_append_singleton rewritten.locate done place).mp
        reachedBy).resolve_right now
      rw [untouched place now]
      exact updated.reached place initial found before
  · rw [Strategy.reachedBy_append_singleton rewritten.locate, not_or] at apart
    rw [untouched place apart.2, updated.kept place apart.1]

/-- **Updating files one after another keeps the invariant.** -/
theorem updateAll (settled : ∀ letter ∈ options.target.marker, Letter.Settled letter)
    (updated : Updated options start done tree) {paths : List Path}
    (regular : ∀ path ∈ paths, start.isRegularFile path = true)
    (free : ∀ path ∈ paths, options.fault? start path = none) :
    Updated options start (done ++ paths) (options.updateAll tree paths) := by
  induction paths generalizing done tree with
  | nil => rwa [List.append_nil]
  | cons path rest ih =>
    obtain ⟨regularHere, regularRest⟩ := List.forall_mem_cons.mp regular
    obtain ⟨freeHere, freeRest⟩ := List.forall_mem_cons.mp free
    have rest := ih (updated.step settled regularHere freeHere) regularRest freeRest
    rwa [List.append_assoc, List.singleton_append] at rest

end Updated

/-! ## Names that share a file -/

/-- The place is given a file of its own: files are replaced, and one of these paths leads there
and does not fail. -/
def RunOptions.Replaces (options : RunOptions) (start : Tree) (paths : List Path)
    (place : Place) : Prop :=
  options.strategy = .atomic ∧
    ∃ path ∈ paths, options.fault? start path = none ∧ start.locate true path = .ok place

/-- **Names share a file after the updates as they did before**, apart from the names of files
that were replaced. -/
theorem Tracks.sameFile_updateAll {options : RunOptions} {start tree : Tree} {files : List Path}
    (tracks : Tracks options.strategy start tree)
    (regular : ∀ path ∈ files, start.isRegularFile path = true) (left right : Place) :
    (options.updateAll tree files).sameFile left right ↔ tree.sameFile left right ∧
      (left = right ∨
        ¬ options.Replaces start files left ∧ ¬ options.Replaces start files right) := by
  induction files generalizing tree with
  | nil => simp [RunOptions.updateAll, RunOptions.Replaces]
  | cons path rest ih =>
    obtain ⟨here, there⟩ := List.forall_mem_cons.mp regular
    have cons (place : Place) : options.Replaces start (path :: rest) place ↔
        (options.strategy = .atomic ∧ options.fault? start path = none ∧
          start.locate true path = .ok place) ∨ options.Replaces start rest place := by
      simp [RunOptions.Replaces, and_or_left]
    have later := ih (tracks.updateFile here options.target) there
    rw [RunOptions.updateAll_cons, later, cons, cons]
    cases verdict : options.fault? start path with
    | some fault =>
      rw [tracks.updateFile_of_fault? here verdict]
      simp
    | none =>
      obtain ⟨target, _, _, rewritten⟩ := tracks.exists_rewritten here verdict
      rw [rewritten.stored.sameFile, rewritten.locate]
      by_cases same : left = right
      · simp [same]
      · simp only [same, false_or, true_and, Except.ok.injEq, not_or, not_and, ne_comm]
        tauto

/-- **Names share a file after a run as they did before**, apart from the names of files that
were replaced. -/
theorem sameFile_run (options : RunOptions) (tree : Tree) (root : Path) (out err : Writer)
    (left right : Place) :
    (run options tree root out err).tree.sameFile left right ↔ tree.sameFile left right ∧
      (left = right ∨
        ¬ options.Replaces tree ((options.record tree root out err).map Prod.fst) left ∧
          ¬ options.Replaces tree ((options.record tree root out err).map Prod.fst) right) := by
  rw [run_tree]
  exact (Tracks.refl _ tree).sameFile_updateAll
    (fun path => RunOptions.isRegularFile_of_mem_record) left right

/-! ## After the run -/

/-- A place that an updated path leads to holds its initial text with the comments in lower case
after a run, for a marker of settled characters. -/
theorem contentAt_run (options : RunOptions) {tree : Tree} {root path : Path} {out err : Writer}
    (settled : ∀ letter ∈ options.target.marker, Letter.Settled letter)
    (listed : (path, none) ∈ options.record tree root out err) {place : Place} {initial : File}
    (leads : tree.LeadsTo path place initial) :
    ∃ text, Utf8.decode initial.content = .ok text ∧
      (run options tree root out err).tree.contentAt place =
        some (Utf8.encode (lowerComments options.target.marker text).text) := by
  have regular : ∀ path ∈ (options.record tree root out err).map Prod.fst,
      tree.isRegularFile path = true := fun path => RunOptions.isRegularFile_of_mem_record
  have free := (RunOptions.mem_record (Tracks.refl _ tree) listed).2.symm
  have kept := fun path (member : path ∈ options.updatable tree
      ((options.record tree root out err).map Prod.fst)) => List.mem_filter.mp member
  have updated := (Updated.initial options tree).updateAll settled
    (fun path member => regular path (kept path member).1)
    fun path member => Option.isNone_iff_eq_none.mp (kept path member).2
  rw [List.nil_append, RunOptions.updateAll_updatable (Tracks.refl _ tree) regular,
    ← run_tree] at updated
  have member : path ∈ options.updatable tree ((options.record tree root out err).map Prod.fst) :=
    List.mem_filter.mpr ⟨List.mem_map_of_mem listed, Option.isNone_iff_eq_none.mpr free⟩
  exact updated.reached place initial leads.file?
    ⟨path, member, place, leads.locate, Tree.reaches_self leads.file? options.strategy⟩

variable {tree : Tree} {root : Path} {out err : Writer} {files : List Path}

/-- The path leads to a text in the one tree, and to that text with its comments in lower case in
the other. -/
def LowersComments (marker : List Char) (before after : Tree) (path : Path) : Prop :=
  ∃ bytes text, before.read path = .ok bytes ∧ Utf8.decode bytes = .ok text ∧
    after.read path = .ok (Utf8.encode (lowerComments marker text).text)

/-- **The files that a run has processed hold their initial text with the comments in lower
case.** -/
theorem lowersComments_updateAll (options : RunOptions)
    (settled : ∀ letter ∈ options.target.marker, Letter.Settled letter)
    (found : discover tree options.target root = .ok files) {path : Path}
    (member : path ∈ options.processed tree files) :
    LowersComments options.target.marker tree
      (options.updateAll tree (options.processed tree files)) path := by
  have regular : ∀ path ∈ options.processed tree files, tree.isRegularFile path = true :=
    fun _ processed =>
      isRegularFile_of_mem_discover found (RunOptions.mem_of_mem_processed processed).1
  have free : ∀ path ∈ options.processed tree files, options.fault? tree path = none :=
    fun _ processed => (RunOptions.mem_of_mem_processed processed).2
  have updated := (Updated.initial options tree).updateAll settled regular free
  rw [List.nil_append] at updated
  obtain ⟨place, initial, leads, plain⟩ := Tree.isRegularFile_iff.mp (regular path member)
  have verdict := free path member
  rw [RunOptions.fault?_eq_updateFault? leads] at verdict
  have readable := (Tree.updateFault?_eq_none_iff.mp verdict).1
  obtain ⟨text, decoded, held⟩ := updated.reached place initial leads.file?
    ⟨path, member, place, leads.locate, Tree.reaches_self leads.file? options.strategy⟩
  refine ⟨initial.content, text, ?_, decoded, updated.tracks.read leads plain readable held⟩
  rw [leads.read_of_readable readable, File.bytes, if_pos plain]

end LowerComments
