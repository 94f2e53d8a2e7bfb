import LowerComments.Proofs.Run.Progress

/-!
# Two runs in lockstep

The record of a run lists the files that the run comes to, each with the fault with
which it failed there or with none (`RunOptions.record`). It ends with the file that
ends the run. The record says what the run did: the tree is the one after the files in
it were updated (`run_tree`), and the reports are the lines for the files without a
fault and for the faults, put on the writers one after another, also when a writer is
full (`run_reported`).

A run looks at its tree only to learn the verdicts on the files. Two runs of one policy
whose writers and counts are level stay level, and stop together, for as long as a file
has the same verdict in both, however different their trees are
(`Progress.Level.advanceAll`). When both trees track one initial tree, the same files
are discovered in them, and the verdicts are those on the initial tree. The two runs
then report the same and end in the same result (`run_lockstep`).
-/

set_option autoImplicit false

namespace LowerComments

/-! ## Records -/

namespace Progress

/-- The files that a run comes to, each with the fault with which it fails there. -/
def record (options : RunOptions) (progress : Progress) : List Path → List (Path × Option Fault)
  | [] => []
  | path :: rest =>
    (path, options.fault? progress.tree path) ::
      match progress.advance options path with
      | (_, some _) => []
      | (next, none) => next.record options rest

variable {options : RunOptions} {start : Tree} {progress : Progress} {path : Path}
  {files : List Path}

/-- What one file contributes follows from the verdict on it. -/
theorem advance_eq (options : RunOptions) (progress : Progress) (path : Path) :
    progress.advance options path =
      let tree := (updateFile options.target options.strategy progress.tree path).2
      match options.fault? progress.tree path with
      | none =>
        let line := Report.processedLine options.styled path
        ({ progress with
            tree := tree, out := progress.out.put line, processed := progress.processed + 1 },
          if progress.out.fits line then none else some (.io progress.out.fault))
      | some fault =>
        match options.onFailure with
        | .abort => ({ progress with tree := tree }, some fault)
        | .proceed =>
          let line := Report.errorLine options.styled fault
          ({ progress with
              tree := tree, err := progress.err.put line, failed := progress.failed + 1 },
            if progress.err.fits line then none else some (.io progress.err.fault)) := by
  rw [advance, RunOptions.fault?]
  rcases update : updateFile options.target options.strategy progress.tree path with
    ⟨fault | outcome, after⟩
  · rfl
  · rw [← path_of_updateFile update]

/-- Whatever becomes of a file, the tree is the one after its update. -/
theorem tree_advance (options : RunOptions) (progress : Progress) (path : Path) :
    (progress.advance options path).1.tree =
      (updateFile options.target options.strategy progress.tree path).2 := by
  rw [advance_eq]
  cases options.fault? progress.tree path with
  | none => rfl
  | some fault => cases options.onFailure <;> rfl

/-- A file without a fault has a line on the one writer. -/
theorem out_advance (options : RunOptions) (progress : Progress) (path : Path) :
    (progress.advance options path).1.out =
      match options.fault? progress.tree path with
      | none => progress.out.put (Report.processedLine options.styled path)
      | some _ => progress.out := by
  rw [advance_eq]
  cases options.fault? progress.tree path with
  | none => rfl
  | some fault => cases options.onFailure <;> rfl

/-- A fault after which the run goes on has a line on the other writer. -/
theorem err_advance (options : RunOptions) (progress : Progress) (path : Path) :
    (progress.advance options path).1.err =
      match options.onFailure, options.fault? progress.tree path with
      | .proceed, some fault => progress.err.put (Report.errorLine options.styled fault)
      | _, _ => progress.err := by
  rw [advance_eq]
  cases options.fault? progress.tree path with
  | none => cases options.onFailure <;> rfl
  | some fault => cases options.onFailure <;> rfl

/-- A file that ends the run is the last one of the record. -/
theorem advanceAll_cons_of_stop {next : Progress} {fault : Fault}
    (step : progress.advance options path = (next, some fault)) (rest : List Path) :
    progress.advanceAll options (path :: rest) = (next, some fault) ∧
      progress.record options (path :: rest) = [(path, options.fault? progress.tree path)] := by
  rw [advanceAll, record, step]
  exact ⟨rfl, rfl⟩

/-- Behind any other file both the run and the record go on. -/
theorem advanceAll_cons_of_step {next : Progress}
    (step : progress.advance options path = (next, none)) (rest : List Path) :
    progress.advanceAll options (path :: rest) = next.advanceAll options rest ∧
      progress.record options (path :: rest) =
        (path, options.fault? progress.tree path) :: next.record options rest := by
  rw [advanceAll, record, step]
  exact ⟨rfl, rfl⟩

/-- The files in the record are the first ones of the list. -/
theorem record_prefix (options : RunOptions) (progress : Progress) (files : List Path) :
    (progress.record options files).map Prod.fst <+: files := by
  induction files generalizing progress with
  | nil => exact List.prefix_rfl
  | cons path rest ih =>
    rcases step : progress.advance options path with ⟨next, _ | fault⟩
    · rw [(advanceAll_cons_of_step step rest).2, List.map_cons]
      exact (List.prefix_cons_inj path).mpr (ih next)
    · rw [(advanceAll_cons_of_stop step rest).2]
      exact (List.prefix_cons_inj path).mpr (List.nil_prefix)

/-- **The tree is the one after the files in the record were updated.** -/
theorem tree_advanceAll (options : RunOptions) (progress : Progress) (files : List Path) :
    (progress.advanceAll options files).1.tree =
      options.updateAll progress.tree ((progress.record options files).map Prod.fst) := by
  induction files generalizing progress with
  | nil => rfl
  | cons path rest ih =>
    have here := tree_advance options progress path
    rcases step : progress.advance options path with ⟨next, _ | fault⟩
    · obtain ⟨goesOn, listed⟩ := advanceAll_cons_of_step step rest
      rw [step] at here
      rw [goesOn, listed, ih, List.map_cons, RunOptions.updateAll_cons, ← here]
    · obtain ⟨stops, listed⟩ := advanceAll_cons_of_stop step rest
      rw [step] at here
      rw [stops, listed]
      exact here

/-- **The files without a fault are reported on one writer**, as far as it takes them. -/
theorem out_advanceAll (options : RunOptions) (progress : Progress) (files : List Path) :
    (progress.advanceAll options files).1.out =
      ((progress.record options files).filter fun item => item.2.isNone).foldl
        (fun out item => out.put (Report.processedLine options.styled item.1)) progress.out := by
  induction files generalizing progress with
  | nil => rfl
  | cons path rest ih =>
    have here := out_advance options progress path
    rcases step : progress.advance options path with ⟨next, _ | fault⟩
    · obtain ⟨goesOn, listed⟩ := advanceAll_cons_of_step step rest
      rw [step] at here
      rw [goesOn, listed, ih, here]
      cases options.fault? progress.tree path <;> rfl
    · obtain ⟨stops, listed⟩ := advanceAll_cons_of_stop step rest
      rw [step] at here
      rw [stops, listed, here]
      cases options.fault? progress.tree path <;> rfl

/-- **The faults are reported on the other writer** if the run goes on after them. -/
theorem err_advanceAll (options : RunOptions) (progress : Progress) (files : List Path) :
    (progress.advanceAll options files).1.err =
      match options.onFailure with
      | .abort => progress.err
      | .proceed => ((progress.record options files).filterMap Prod.snd).foldl
          (fun err fault => err.put (Report.errorLine options.styled fault)) progress.err := by
  induction files generalizing progress with
  | nil => cases options.onFailure <;> rfl
  | cons path rest ih =>
    have here := err_advance options progress path
    rcases step : progress.advance options path with ⟨next, _ | fault⟩
    · obtain ⟨goesOn, listed⟩ := advanceAll_cons_of_step step rest
      rw [step] at here
      rw [goesOn, listed, ih, here]
      cases options.onFailure <;> cases options.fault? progress.tree path <;> rfl
    · obtain ⟨stops, listed⟩ := advanceAll_cons_of_stop step rest
      rw [step] at here
      rw [stops, listed, here]
      cases options.onFailure <;> cases options.fault? progress.tree path <;> rfl

/-- A run that nothing stops comes to all files, and it counts the faults. -/
theorem record_of_advanceAll {last : Progress}
    (ended : progress.advanceAll options files = (last, none)) :
    (progress.record options files).map Prod.fst = files ∧
      last.failed =
        progress.failed + ((progress.record options files).filterMap Prod.snd).length := by
  induction files generalizing progress with
  | nil =>
    obtain rfl : progress = last := congrArg Prod.fst ended
    exact ⟨rfl, rfl⟩
  | cons path rest ih =>
    rcases step : progress.advance options path with ⟨next, _ | fault⟩
    · obtain ⟨goesOn, listed⟩ := advanceAll_cons_of_step step rest
      obtain ⟨all, count⟩ := ih (goesOn.symm.trans ended)
      rw [listed, List.map_cons, all, count]
      refine ⟨rfl, ?_⟩
      rw [advance_eq] at step
      cases verdict : options.fault? progress.tree path with
      | none =>
        simp only [verdict, Prod.mk.injEq] at step
        have failed : next.failed = progress.failed := by rw [← step.1]
        rw [failed, List.filterMap_cons]
      | some fault =>
        cases policy : options.onFailure with
        | abort => simp [verdict, policy] at step
        | proceed =>
          simp only [verdict, policy, Prod.mk.injEq] at step
          have failed : next.failed = progress.failed + 1 := by rw [← step.1]
          rw [failed, List.filterMap_cons, List.length_cons]
          omega
    · obtain ⟨stops, _⟩ := advanceAll_cons_of_stop step rest
      exact absurd (congrArg Prod.snd (stops.symm.trans ended)) (by simp)

/-- **The record holds the verdicts on the initial tree.** -/
theorem record_verdict (tracks : Tracks options.strategy start progress.tree)
    (regular : ∀ path ∈ files, start.isRegularFile path = true) {verdict : Option Fault}
    (listed : (path, verdict) ∈ progress.record options files) :
    verdict = options.fault? start path := by
  induction files generalizing progress with
  | nil => exact absurd listed List.not_mem_nil
  | cons first rest ih =>
    obtain ⟨regularHere, regularRest⟩ := List.forall_mem_cons.mp regular
    have here := tracks.fault?_eq regularHere
    rcases step : progress.advance options first with ⟨next, _ | fault⟩
    · rw [(advanceAll_cons_of_step step rest).2, here] at listed
      rcases List.mem_cons.mp listed with same | later
      · obtain ⟨rfl, rfl⟩ := Prod.mk.inj same
        rfl
      · have tree := tree_advance options progress first
        rw [step] at tree
        have tracksNext := tracks.updateFile regularHere options.target
        rw [← tree] at tracksNext
        exact ih tracksNext regularRest later
    · rw [(advanceAll_cons_of_stop step rest).2, here] at listed
      obtain ⟨rfl, rfl⟩ := Prod.mk.inj (List.mem_singleton.mp listed)
      rfl

end Progress

/-! ## Level runs -/

/-- The writers and the counts of two runs are the same. -/
structure Progress.Level (left right : Progress) : Prop where
  out : right.out = left.out
  err : right.err = left.err
  processed : right.processed = left.processed
  failed : right.failed = left.failed

namespace Progress.Level

variable {options others : RunOptions} {left right : Progress} {files : List Path}

/-- A file with one verdict in both runs keeps them level, and it stops both or neither. -/
theorem advance (level : left.Level right) (policy : others.onFailure = options.onFailure)
    (styled : others.styled = options.styled) {path : Path}
    (verdict : others.fault? right.tree path = options.fault? left.tree path) :
    (left.advance options path).1.Level (right.advance others path).1 ∧
      (right.advance others path).2 = (left.advance options path).2 := by
  rw [advance_eq, advance_eq, verdict, policy, styled]
  cases options.fault? left.tree path with
  | none =>
    simp only [level.out, level.processed]
    exact ⟨⟨rfl, level.err, rfl, level.failed⟩, trivial⟩
  | some fault =>
    cases options.onFailure with
    | abort => exact ⟨⟨level.out, level.err, level.processed, level.failed⟩, rfl⟩
    | proceed =>
      simp only [level.err, level.failed]
      exact ⟨⟨level.out, rfl, level.processed, rfl⟩, trivial⟩

/-- **Runs over the same files stay level as long as the files that both come to have the same
verdict in both.** -/
theorem advanceAll (level : left.Level right) (policy : others.onFailure = options.onFailure)
    (styled : others.styled = options.styled)
    (agree : ∀ path verdict other, (path, verdict) ∈ left.record options files →
      (path, other) ∈ right.record others files → other = verdict) :
    (left.advanceAll options files).1.Level (right.advanceAll others files).1 ∧
      (right.advanceAll others files).2 = (left.advanceAll options files).2 ∧
      right.record others files = left.record options files := by
  induction files generalizing left right with
  | nil => exact ⟨level, rfl, rfl⟩
  | cons path rest ih =>
    have verdict : others.fault? right.tree path = options.fault? left.tree path :=
      agree path _ _ List.mem_cons_self List.mem_cons_self
    have both := level.advance policy styled verdict
    rcases step : left.advance options path with ⟨next, _ | fault⟩
    · rcases other : right.advance others path with ⟨nextOther, _ | fault⟩
      · obtain ⟨goesOn, listed⟩ := advanceAll_cons_of_step step rest
        obtain ⟨goesOnOther, listedOther⟩ := advanceAll_cons_of_step other rest
        rw [listed, listedOther] at agree
        rw [step, other] at both
        obtain ⟨ends, stop, same⟩ := ih both.1 fun path verdict other here there =>
          agree path verdict other (List.mem_cons_of_mem _ here) (List.mem_cons_of_mem _ there)
        rw [goesOn, goesOnOther, listed, listedOther, verdict, same]
        exact ⟨ends, stop, rfl⟩
      · rw [step, other] at both
        exact absurd both.2 (by simp)
    · rcases other : right.advance others path with ⟨nextOther, _ | faultOther⟩
      · rw [step, other] at both
        exact absurd both.2 (by simp)
      · obtain ⟨stops, listed⟩ := advanceAll_cons_of_stop step rest
        obtain ⟨stopsOther, listedOther⟩ := advanceAll_cons_of_stop other rest
        rw [step, other] at both
        rw [stops, stopsOther, listed, listedOther, verdict]
        exact ⟨both.1, both.2, rfl⟩

end Progress.Level

/-! ## Runs over a directory -/

/-- The result of a run over so many files, from where it came and from what stopped it. -/
def Progress.ending (last : Progress) (total : Nat) : Option Fault → Except Fault Summary
  | some fault => .error fault
  | none =>
    if 0 < last.failed then .error (.failed last.failed total)
    else .ok ⟨total, last.processed, last.failed⟩

/-- Level runs that were stopped alike end in the same result. -/
theorem Progress.Level.ending {left right : Progress} (level : left.Level right) (total : Nat)
    (stop : Option Fault) : right.ending total stop = left.ending total stop := by
  cases stop with
  | some fault => rfl
  | none => rw [Progress.ending, Progress.ending, level.failed, level.processed]

/-- The files that a run over a directory comes to, each with the fault with which it fails
there. -/
def RunOptions.record (options : RunOptions) (tree : Tree) (root : Path) (out err : Writer) :
    List (Path × Option Fault) :=
  match discover tree options.target root with
  | .error _ => []
  | .ok files => Progress.record options { tree := tree, out := out, err := err } files

section Runs

variable {options others : RunOptions} {start tree other : Tree} {root path : Path}
  {out err : Writer} {files : List Path}

/-- The same files are discovered in a tree and in one that tracks it. -/
theorem Tracks.discover {strategy : Strategy} (tracks : Tracks strategy start tree)
    (target : Target) (root : Path) :
    LowerComments.discover tree target root = LowerComments.discover start target root :=
  discover_congr tracks.shape tracks.isRegularFile target root

theorem record_of_discover (found : discover tree options.target root = .ok files) :
    options.record tree root out err =
      Progress.record options { tree := tree, out := out, err := err } files := by
  rw [RunOptions.record, found]

/-- A run ends where its progress over the discovered files ends. -/
theorem run_of_discover (found : discover tree options.target root = .ok files) :
    run options tree root out err =
      let ended := Progress.advanceAll options { tree := tree, out := out, err := err } files
      ended.1.finish (ended.1.ending files.length ended.2) := by
  rw [run, found]
  simp only
  split
  · next last fault ended => rw [ended, Progress.ending]
  · next last ended =>
    rw [ended, Progress.ending]
    split <;> rfl

/-- **A run leaves the tree after the files in its record were updated.** -/
theorem run_tree (options : RunOptions) (tree : Tree) (root : Path) (out err : Writer) :
    (run options tree root out err).tree =
      options.updateAll tree ((options.record tree root out err).map Prod.fst) := by
  cases found : discover tree options.target root with
  | error fault => rw [run, RunOptions.record, found]; rfl
  | ok files =>
    rw [run_of_discover found, record_of_discover found]
    exact Progress.tree_advanceAll options { tree := tree, out := out, err := err } files

/-- **A run reports the files without a fault on one writer**, as far as it takes them, **and the
faults on the other**, if the run goes on after them. -/
theorem run_reported (options : RunOptions) (tree : Tree) (root : Path) (out err : Writer) :
    (run options tree root out err).out =
        ((options.record tree root out err).filter fun item => item.2.isNone).foldl
          (fun out item => out.put (Report.processedLine options.styled item.1)) out ∧
      (run options tree root out err).err =
        match options.onFailure with
        | .abort => err
        | .proceed => ((options.record tree root out err).filterMap Prod.snd).foldl
            (fun err fault => err.put (Report.errorLine options.styled fault)) err := by
  cases found : discover tree options.target root with
  | error fault =>
    rw [run, RunOptions.record, found]
    cases options.onFailure <;> exact ⟨rfl, rfl⟩
  | ok files =>
    rw [run_of_discover found, record_of_discover found]
    exact ⟨Progress.out_advanceAll options { tree := tree, out := out, err := err } files,
      Progress.err_advanceAll options { tree := tree, out := out, err := err } files⟩

/-- The files in the record of a run are among the discovered ones. -/
theorem RunOptions.mem_discover {item : Path × Option Fault}
    (listed : item ∈ options.record tree root out err) :
    ∃ files, discover tree options.target root = .ok files ∧ item.1 ∈ files := by
  cases found : discover tree options.target root with
  | error fault =>
    rw [record, found] at listed
    exact absurd listed List.not_mem_nil
  | ok files =>
    rw [record_of_discover found] at listed
    exact ⟨files, rfl,
      (Progress.record_prefix options _ files).subset (List.mem_map_of_mem listed)⟩

/-- **The record of a run lists regular files with their verdicts on the initial tree.** -/
theorem RunOptions.mem_record (tracks : Tracks options.strategy start tree)
    {verdict : Option Fault} (listed : (path, verdict) ∈ options.record tree root out err) :
    start.isRegularFile path = true ∧ verdict = options.fault? start path := by
  obtain ⟨files, found, member⟩ := mem_discover listed
  rw [record_of_discover found] at listed
  rw [tracks.discover] at found
  have regular : ∀ path ∈ files, start.isRegularFile path = true := fun _ member =>
    isRegularFile_of_mem_discover found member
  exact ⟨regular path member, Progress.record_verdict tracks regular listed⟩

/-- The files in the record of a run are regular ones. -/
theorem RunOptions.isRegularFile_of_mem_record
    (member : path ∈ (options.record tree root out err).map Prod.fst) :
    tree.isRegularFile path = true := by
  obtain ⟨⟨_, verdict⟩, listed, rfl⟩ := List.mem_map.mp member
  exact (mem_record (Tracks.refl _ tree) listed).1

/-- **The tree that a run leaves tracks the initial one.** -/
theorem tracks_run (options : RunOptions) (tree : Tree) (root : Path) (out err : Writer) :
    Tracks options.strategy tree (run options tree root out err).tree := by
  rw [run_tree]
  exact (Tracks.refl _ tree).updateAll fun path => RunOptions.isRegularFile_of_mem_record

/-- **A run that ends in a summary comes to every discovered file, and none of them fails.** -/
theorem record_of_ok {summary : Summary}
    (succeeds : (run options tree root out err).result = .ok summary) :
    ∃ files, discover tree options.target root = .ok files ∧
      options.record tree root out err = files.map fun path => (path, none) := by
  cases found : discover tree options.target root with
  | error fault =>
    rw [run, found] at succeeds
    exact absurd succeeds (by simp [Progress.finish])
  | ok files =>
    rw [run_of_discover found] at succeeds
    refine ⟨files, rfl, ?_⟩
    rw [record_of_discover found]
    rcases ended : Progress.advanceAll options { tree := tree, out := out, err := err } files with
      ⟨last, _ | fault⟩
    · obtain ⟨all, count⟩ := Progress.record_of_advanceAll ended
      have clean : ¬ 0 < last.failed := by
        intro failing
        rw [ended] at succeeds
        simp [Progress.finish, Progress.ending, failing] at succeeds
      rw [Nat.zero_add] at count
      generalize Progress.record options { tree := tree, out := out, err := err } files = record
        at all count ⊢
      have free : record.filterMap Prod.snd = [] := List.length_eq_zero_iff.mp (by omega)
      have plain : ∀ item ∈ record, item = (item.1, none) := fun item member =>
        Prod.ext rfl (List.filterMap_eq_nil_iff.mp free item member)
      calc record = record.map fun item => (item.1, none) :=
            (List.map_id' record).symm.trans (List.map_congr_left plain)
        _ = (record.map Prod.fst).map fun path => (path, none) := by rw [List.map_map]; rfl
        _ = files.map fun path => (path, none) := by rw [all]
    · rw [ended] at succeeds
      exact absurd succeeds (by simp [Progress.finish, Progress.ending])

/-- **Runs of one policy from trees that track one tree report the same** and end in the same
result, if the files that both come to have the same verdict in both. -/
theorem run_lockstep (target : others.target = options.target)
    (policy : others.onFailure = options.onFailure) (styled : others.styled = options.styled)
    (tracks : Tracks options.strategy start tree)
    (tracksOther : Tracks others.strategy start other)
    (agree : ∀ path verdict again, (path, verdict) ∈ options.record tree root out err →
      (path, again) ∈ others.record other root out err → again = verdict) :
    (run others other root out err).result = (run options tree root out err).result ∧
      (run others other root out err).out = (run options tree root out err).out ∧
      (run others other root out err).err = (run options tree root out err).err ∧
      others.record other root out err = options.record tree root out err := by
  have first := tracks.discover options.target root
  have second := tracksOther.discover others.target root
  rw [target] at second
  cases found : discover start options.target root with
  | error fault =>
    rw [found] at first second
    rw [run, run, RunOptions.record, RunOptions.record, target, first, second]
    exact ⟨rfl, rfl, rfl, rfl⟩
  | ok files =>
    have here := first.trans found
    have there : discover other others.target root = .ok files := target ▸ second.trans found
    rw [record_of_discover here, record_of_discover there] at agree ⊢
    rw [run_of_discover here, run_of_discover there]
    have begin : Progress.Level { tree := tree, out := out, err := err }
        { tree := other, out := out, err := err } := ⟨rfl, rfl, rfl, rfl⟩
    obtain ⟨level, stop, same⟩ := begin.advanceAll policy styled agree
    refine ⟨?_, level.out, level.err, same⟩
    simp only [Progress.finish]
    rw [stop, level.ending]

end Runs

end LowerComments
