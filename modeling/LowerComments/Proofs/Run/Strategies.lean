import LowerComments.Proofs.Run.Contents
import LowerComments.Proofs.Run.Lockstep
import LowerComments.Proofs.Tree.Sight

/-!
# The two ways of writing back agree

Writing in place changes a file, and with it what is read under each of its names.
Replacing gives one name a new file. Over a whole run the two come to the same wherever
this difference cannot be seen.

Unless a file cannot be written, its verdict does not depend on the way of writing
(`fault?_under_eq`). A run of either kind therefore comes to the same files and reports
the same (`reports_under`). The bytes of a file are then compared at one place. When no
updated path leads to another name of the file there, both runs write the same bytes in
the same order (`file?_updateAll_under`). When one does, the run in place lower-cases
the file once for each of the names, and by the idempotence of lower-casing the bytes
agree again, for a marker of settled characters (`contentAt_under`). For other markers
they need not.
-/

set_option autoImplicit false

namespace LowerComments

open LowerComments.Comment

/-- The same run with another way of writing back. -/
def RunOptions.under (options : RunOptions) (strategy : Strategy) : RunOptions :=
  { options with strategy := strategy }

/-- No file of the record failed to be written. -/
def WritesAll (record : List (Path × Option Fault)) : Prop :=
  ∀ path named cause, (path, some (.write named cause)) ∉ record

variable {options : RunOptions} {start tree written replaced : Tree} {files : List Path}
  {path : Path} {place : Place}

/-! ## Verdicts -/

/-- **A file fails alike under both strategies**, unless writing it fails. -/
theorem fault?_under_eq (regular : tree.isRegularFile path = true)
    (inPlace : ∀ named cause, (options.under .inPlace).fault? tree path ≠ some (.write named cause))
    (atomic : ∀ named cause, (options.under .atomic).fault? tree path ≠ some (.write named cause)) :
    (options.under .atomic).fault? tree path = (options.under .inPlace).fault? tree path := by
  obtain ⟨place, file, leads, _⟩ := Tree.isRegularFile_iff.mp regular
  rw [RunOptions.fault?_eq_updateFault? leads, Tree.updateFault?] at inPlace atomic ⊢
  rw [RunOptions.fault?_eq_updateFault? leads, Tree.updateFault?]
  cases readable : file.unreadable with
  | some error => rfl
  | none =>
    simp only [readable] at inPlace atomic ⊢
    cases decoded : Utf8.decode file.bytes with
    | error cause => rfl
    | ok text =>
      simp only [decoded] at inPlace atomic ⊢
      cases written : tree.storeFault? (options.under .inPlace).strategy place file with
      | some cause => exact absurd (by rw [written, Option.map_some]) (inPlace path cause)
      | none =>
        cases replaced : tree.storeFault? (options.under .atomic).strategy place file with
        | some cause => exact absurd (by rw [replaced, Option.map_some]) (atomic path cause)
        | none => rfl

/-! ## Bytes at one place -/

/-- An update of one file keeps a place level, unless it leads to another name of the file
there. -/
theorem file?_updateFile_under (tracksWritten : Tracks .inPlace start written)
    (tracksReplaced : Tracks .atomic start replaced) (regular : start.isRegularFile path = true)
    (agree : (options.under .atomic).fault? start path = (options.under .inPlace).fault? start path)
    (alone : (options.under .inPlace).fault? start path = none →
      ∀ target, start.locate true path = .ok target → start.sameFile target place → target = place)
    (level : replaced.file? place = written.file? place) :
    (updateFile (options.under .atomic).target (options.under .atomic).strategy replaced
        path).2.file? place =
      (updateFile (options.under .inPlace).target (options.under .inPlace).strategy written
        path).2.file? place := by
  cases verdict : (options.under .inPlace).fault? start path with
  | some fault =>
    rw [tracksWritten.updateFile_of_fault? regular verdict,
      tracksReplaced.updateFile_of_fault? regular (agree.trans verdict)]
    exact level
  | none =>
    obtain ⟨target, file, text, first⟩ := tracksWritten.exists_rewritten regular verdict
    obtain ⟨again, fileToo, textToo, second⟩ :=
      tracksReplaced.exists_rewritten regular (agree.trans verdict)
    obtain rfl : target = again := Except.ok.inj (first.locate.symm.trans second.locate)
    by_cases here : place = target
    · subst here
      obtain rfl : file = fileToo :=
        Option.some.inj (first.leads.file?.symm.trans (level.symm.trans second.leads.file?))
      obtain rfl : text = textToo := Except.ok.inj (first.decoded.symm.trans second.decoded)
      rw [first.stored.reached place (Tree.reaches_self first.leads.file? _),
        second.stored.reached place (Tree.reaches_self second.leads.file? _), first.leads.file?,
        second.leads.file?, Option.map_some, Option.map_some]
      exact congrArg some (rewrite_inPlace_eq_atomic first.isRegular first.unreadable
        (first.unwritable rfl) _).symm
    · have apart : ¬ Strategy.Reaches .inPlace written target place := fun reaches =>
        here (alone verdict target first.locate
          ((tracksWritten.reaches_iff target place).mp reaches)).symm
      rw [first.stored.kept place apart, second.stored.kept place here, level]

/-- **A place names the same file after both kinds of updates**, if no updated path leads to
another name of the file there. -/
theorem file?_updateAll_under (tracksWritten : Tracks .inPlace start written)
    (tracksReplaced : Tracks .atomic start replaced)
    (regular : ∀ path ∈ files, start.isRegularFile path = true)
    (agree : ∀ path ∈ files,
      (options.under .atomic).fault? start path = (options.under .inPlace).fault? start path)
    (alone : ∀ path ∈ files, (options.under .inPlace).fault? start path = none →
      ∀ target, start.locate true path = .ok target → start.sameFile target place → target = place)
    (level : replaced.file? place = written.file? place) :
    ((options.under .atomic).updateAll replaced files).file? place =
      ((options.under .inPlace).updateAll written files).file? place := by
  induction files generalizing written replaced with
  | nil => exact level
  | cons path rest ih =>
    obtain ⟨regularHere, regularRest⟩ := List.forall_mem_cons.mp regular
    obtain ⟨agreeHere, agreeRest⟩ := List.forall_mem_cons.mp agree
    obtain ⟨aloneHere, aloneRest⟩ := List.forall_mem_cons.mp alone
    exact ih (tracksWritten.updateFile regularHere _) (tracksReplaced.updateFile regularHere _)
      regularRest agreeRest aloneRest
      (file?_updateFile_under tracksWritten tracksReplaced regularHere agreeHere aloneHere level)

/-! ## Whole runs -/

section Runs

variable {root : Path} {out err : Writer}

/-- **The runs of both kinds come to the same files and report the same**, if no file fails to be
written. -/
theorem reports_under (inPlace : WritesAll ((options.under .inPlace).record tree root out err))
    (atomic : WritesAll ((options.under .atomic).record tree root out err)) :
    (run (options.under .atomic) tree root out err).result =
        (run (options.under .inPlace) tree root out err).result ∧
      (run (options.under .atomic) tree root out err).out =
        (run (options.under .inPlace) tree root out err).out ∧
      (run (options.under .atomic) tree root out err).err =
        (run (options.under .inPlace) tree root out err).err ∧
      (options.under .atomic).record tree root out err =
        (options.under .inPlace).record tree root out err := by
  refine run_lockstep rfl rfl rfl (Tracks.refl _ tree) (Tracks.refl _ tree)
    fun path verdict again here there => ?_
  obtain ⟨regular, rfl⟩ := RunOptions.mem_record (Tracks.refl _ tree) here
  obtain ⟨_, rfl⟩ := RunOptions.mem_record (Tracks.refl _ tree) there
  exact fault?_under_eq regular (fun named cause failed => inPlace path named cause (failed ▸ here))
    fun named cause failed => atomic path named cause (failed ▸ there)

/-- The files that both runs come to are regular ones with one verdict. -/
theorem verdict_under (inPlace : WritesAll ((options.under .inPlace).record tree root out err))
    (atomic : WritesAll ((options.under .atomic).record tree root out err))
    {verdict : Option Fault}
    (listed : (path, verdict) ∈ (options.under .inPlace).record tree root out err) :
    tree.isRegularFile path = true ∧ (options.under .inPlace).fault? tree path = verdict ∧
      (options.under .atomic).fault? tree path = verdict := by
  have again := listed
  rw [← (reports_under inPlace atomic).2.2.2] at again
  obtain ⟨regular, here⟩ := RunOptions.mem_record (Tracks.refl _ tree) listed
  exact ⟨regular, here.symm, (RunOptions.mem_record (Tracks.refl _ tree) again).2.symm⟩

/-- **A place names the same file after both runs**, if no updated path leads to another name of
the file there. -/
theorem file?_under (inPlace : WritesAll ((options.under .inPlace).record tree root out err))
    (atomic : WritesAll ((options.under .atomic).record tree root out err))
    (alone : ∀ path target, (path, none) ∈ (options.under .inPlace).record tree root out err →
      tree.locate true path = .ok target → tree.sameFile target place → target = place) :
    (run (options.under .atomic) tree root out err).tree.file? place =
      (run (options.under .inPlace) tree root out err).tree.file? place := by
  rw [run_tree, run_tree, (reports_under inPlace atomic).2.2.2]
  refine file?_updateAll_under (Tracks.refl _ tree) (Tracks.refl _ tree)
    (fun path => RunOptions.isRegularFile_of_mem_record) (fun path member => ?_)
    (fun path member free target => ?_) rfl
  · obtain ⟨⟨named, verdict⟩, listed, rfl⟩ := List.mem_map.mp member
    obtain ⟨_, here, there⟩ := verdict_under inPlace atomic listed
    exact there.trans here.symm
  · obtain ⟨⟨named, verdict⟩, listed, rfl⟩ := List.mem_map.mp member
    obtain rfl : verdict = none := (verdict_under inPlace atomic listed).2.1.symm.trans free
    exact alone named target listed

/-- **An updated path leads to the same bytes after both runs**, for a marker of settled
characters. -/
theorem contentAt_under (inPlace : WritesAll ((options.under .inPlace).record tree root out err))
    (atomic : WritesAll ((options.under .atomic).record tree root out err))
    (settled : ∀ letter ∈ options.target.marker, Letter.Settled letter)
    (listed : (path, none) ∈ (options.under .inPlace).record tree root out err) {initial : File}
    (leads : tree.LeadsTo path place initial) :
    (run (options.under .atomic) tree root out err).tree.contentAt place =
      (run (options.under .inPlace) tree root out err).tree.contentAt place := by
  have again := listed
  rw [← (reports_under inPlace atomic).2.2.2] at again
  obtain ⟨text, decoded, held⟩ := contentAt_run (options.under .inPlace) settled listed leads
  obtain ⟨other, decodedToo, heldToo⟩ := contentAt_run (options.under .atomic) settled again leads
  obtain rfl : text = other := Except.ok.inj (decoded.symm.trans decodedToo)
  rw [held, heldToo]
  rfl

/-- **Both runs leave the same bytes under a path that they updated**, if the characters of the
marker are settled or no updated path leads to another name of the file. -/
theorem read_under (inPlace : WritesAll ((options.under .inPlace).record tree root out err))
    (atomic : WritesAll ((options.under .atomic).record tree root out err))
    (listed : (path, none) ∈ (options.under .inPlace).record tree root out err)
    (located : tree.locate true path = .ok place)
    (single : (∀ letter ∈ options.target.marker, Letter.Settled letter) ∨
      ∀ other target, (other, none) ∈ (options.under .inPlace).record tree root out err →
        tree.locate true other = .ok target → tree.sameFile target place → target = place) :
    ∃ bytes, (run (options.under .inPlace) tree root out err).tree.read path = .ok bytes ∧
      (run (options.under .atomic) tree root out err).tree.read path = .ok bytes := by
  obtain ⟨regular, free, _⟩ := verdict_under inPlace atomic listed
  obtain ⟨there, initial, leads, plain⟩ := Tree.isRegularFile_iff.mp regular
  obtain rfl : place = there := Except.ok.inj (located.symm.trans leads.locate)
  rw [RunOptions.fault?_eq_updateFault? leads] at free
  have readable := (Tree.updateFault?_eq_none_iff.mp free).1
  have tracks := tracks_run (options.under .inPlace) tree root out err
  have tracksToo := tracks_run (options.under .atomic) tree root out err
  have level : (run (options.under .atomic) tree root out err).tree.contentAt place =
      (run (options.under .inPlace) tree root out err).tree.contentAt place := by
    rcases single with settled | alone
    · exact contentAt_under inPlace atomic settled listed leads
    · exact congrArg (Option.map File.content) (file?_under inPlace atomic alone)
  obtain ⟨after, found, _⟩ := tracks.file? leads.file?
  have held : (run (options.under .inPlace) tree root out err).tree.contentAt place =
      some after.content := by rw [Tree.contentAt, found, Option.map_some]
  exact ⟨after.content, tracks.read leads plain readable held,
    tracksToo.read leads plain readable (level.trans held)⟩

/-- **Both runs leave the same tree** if each file that a discovered path leads to has one name
only. -/
theorem unchanged_under (inPlace : WritesAll ((options.under .inPlace).record tree root out err))
    (atomic : WritesAll ((options.under .atomic).record tree root out err))
    (single : ∀ files, discover tree options.target root = .ok files → ∀ path ∈ files,
      ∀ target other, tree.locate true path = .ok target → tree.sameFile target other →
        target = other) :
    Unchanged (run (options.under .inPlace) tree root out err).tree
      (run (options.under .atomic) tree root out err).tree := by
  have tracks := tracks_run (options.under .inPlace) tree root out err
  have tracksToo := tracks_run (options.under .atomic) tree root out err
  refine ⟨SameSight.of_shape (tracks.shape.symm.trans tracksToo.shape) fun place => ?_,
    fun left right => ?_⟩
  · refine file?_under inPlace atomic fun path target listed located => ?_
    obtain ⟨files, found, member⟩ := RunOptions.mem_discover listed
    exact single files found path member target place located
  · have kept : (run (options.under .inPlace) tree root out err).tree.sameFile left right ↔
        tree.sameFile left right := by
      rw [sameFile_run]
      simp [RunOptions.Replaces, RunOptions.under]
    rw [sameFile_run, kept, and_iff_left_iff_imp]
    intro shared
    -- A replaced name has no other name, so two names that share a file are one of them or none.
    have alone : ∀ place other, (options.under .atomic).Replaces tree
        (((options.under .atomic).record tree root out err).map Prod.fst) place →
        tree.sameFile place other → place = other := by
      rintro place other ⟨_, path, member, _, located⟩
      obtain ⟨⟨named, verdict⟩, listed, rfl⟩ := List.mem_map.mp member
      obtain ⟨files, found, among⟩ := RunOptions.mem_discover listed
      exact single files found named among place other located
    by_cases same : left = right
    · exact .inl same
    · exact .inr ⟨fun replaced => same (alone left right replaced shared), fun replaced =>
        same (alone right left replaced (Tree.sameFile_comm.mp shared)).symm⟩

/-- **Writing in place and replacing agree.** If no file fails to be written under either
strategy, both runs end in the same result with the same reports, one sees the same at every
place apart from the bytes of files, and a path that is reported as updated leads to the same
place. It leads to the same bytes if lower-casing changes no character of the marker, or if no
updated path leads to another name of its file. If no file that a discovered path leads to has
a second name, the two runs leave the same tree. -/
theorem run_under (options : RunOptions) (tree : Tree) (root : Path) (out err : Writer)
    (inPlace : WritesAll ((options.under .inPlace).record tree root out err))
    (atomic : WritesAll ((options.under .atomic).record tree root out err)) :
    let written := run (options.under .inPlace) tree root out err
    let replaced := run (options.under .atomic) tree root out err
    let record := (options.under .inPlace).record tree root out err
    replaced.result = written.result ∧ replaced.out = written.out ∧ replaced.err = written.err ∧
      (options.under .atomic).record tree root out err = record ∧
      written.out = (record.filter fun item => item.2.isNone).foldl
        (fun out item => out.put (Report.processedLine options.styled item.1)) out ∧
      (∀ place, replaced.tree.outlineAt place = written.tree.outlineAt place) ∧
      (∀ path, (path, none) ∈ record → ∃ place,
        written.tree.locate true path = .ok place ∧ replaced.tree.locate true path = .ok place ∧
          ((∀ letter ∈ options.target.marker, Letter.Settled letter) ∨
              (∀ other target, (other, none) ∈ record → tree.locate true other = .ok target →
                tree.sameFile target place → target = place) →
            ∃ bytes, written.tree.read path = .ok bytes ∧
              replaced.tree.read path = .ok bytes)) ∧
      ((∀ files, discover tree options.target root = .ok files → ∀ path ∈ files,
          ∀ target other, tree.locate true path = .ok target → tree.sameFile target other →
            target = other) →
        Unchanged written.tree replaced.tree) := by
  obtain ⟨result, outs, errs, records⟩ := reports_under inPlace atomic
  have tracks := tracks_run (options.under .inPlace) tree root out err
  have tracksToo := tracks_run (options.under .atomic) tree root out err
  refine ⟨result, outs, errs, records, (run_reported _ tree root out err).1, fun place => ?_,
    fun path listed => ?_, unchanged_under inPlace atomic⟩
  · rw [tracks.outlineAt, tracksToo.outlineAt]
  · obtain ⟨place, _, leads, _⟩ :=
      Tree.isRegularFile_iff.mp (verdict_under inPlace atomic listed).1
    exact ⟨place, (tracks.shape.locate true path).trans leads.locate,
      (tracksToo.shape.locate true path).trans leads.locate,
      read_under inPlace atomic listed leads.locate⟩

end Runs

/-- A file, a link to it and a file that is not a text, which is passed over both times. -/
theorem run_under_linkedTree :
    let options : RunOptions := { onFailure := .proceed }
    let written := run (options.under .inPlace) linkedTree (Bytes.ofString ".") {} {}
    let replaced := run (options.under .atomic) linkedTree (Bytes.ofString ".") {} {}
    WritesAll ((options.under .inPlace).record linkedTree (Bytes.ofString ".") {} {}) ∧
      WritesAll ((options.under .atomic).record linkedTree (Bytes.ofString ".") {} {}) ∧
      replaced.result = written.result ∧ replaced.err = written.err ∧
      (∃ bytes, written.tree.read (Bytes.ofString "./b.lua") = .ok bytes ∧
        replaced.tree.read (Bytes.ofString "./b.lua") = .ok bytes) ∧
      Unchanged written.tree replaced.tree := by
  intro options written replaced
  let record : List (Path × Option Fault) :=
    [(Bytes.ofString "./a.lua", none), (Bytes.ofString "./b.lua", none),
      (Bytes.ofString "./c.lua", some (.decode (Bytes.ofString "./c.lua") ⟨0, some 1⟩))]
  have first :
      (options.under .inPlace).record linkedTree (Bytes.ofString ".") {} {} = record := by
    decide +kernel
  have second :
      (options.under .atomic).record linkedTree (Bytes.ofString ".") {} {} = record := by
    decide +kernel
  have writes : WritesAll record := by simp [WritesAll, record]
  have inPlace := first ▸ writes
  have atomic := second ▸ writes
  obtain ⟨result, _, errs, _, _, _, reads, same⟩ :=
    run_under options linkedTree (Bytes.ofString ".") {} {} inPlace atomic
  obtain ⟨place, _, _, level⟩ := reads (Bytes.ofString "./b.lua") (by simp [first, record])
  exact ⟨inPlace, atomic, result, errs, level (.inl Letter.settled_hyphens),
    same fun _ _ _ _ _ _ _ => Tree.eq_of_sameFile (by decide +kernel)⟩

/-- Comments that start with a letter which lower-casing folds. -/
def foldingOptions : RunOptions :=
  { target := { extension := Bytes.ofString ".lua", marker := ['A', 'a'] } }

/-- A file with two names. The first lower-casing of its text makes an earlier marker. -/
def doubleTree : Tree :=
  (({} : Tree).addFile [Bytes.ofString "a.lua"] { content := Bytes.ofString "AAa" }).setEntry
    [Bytes.ofString "b.lua"] (.file 0)

/-- With a marker that lower-casing folds, the run in place lower-cases a file with two names
twice, and the run that replaces lower-cases each of the two files once. -/
theorem run_under_folding :
    let written := run (foldingOptions.under .inPlace) doubleTree (Bytes.ofString ".") {} {}
    let replaced := run (foldingOptions.under .atomic) doubleTree (Bytes.ofString ".") {} {}
    let record := [(Bytes.ofString "./a.lua", none), (Bytes.ofString "./b.lua", none)]
    (foldingOptions.under .inPlace).record doubleTree (Bytes.ofString ".") {} {} = record ∧
      (foldingOptions.under .atomic).record doubleTree (Bytes.ofString ".") {} {} = record ∧
      WritesAll record ∧
      written.tree.read (Bytes.ofString "./a.lua") = .ok (Bytes.ofString "aaa") ∧
      replaced.tree.read (Bytes.ofString "./a.lua") = .ok (Bytes.ofString "Aaa") := by
  refine ⟨rfl, rfl, by simp [WritesAll], ?_, ?_⟩
  · decide +kernel
  · decide +kernel

end LowerComments
