import LowerComments.Proofs.Run.Lockstep
import LowerComments.Proofs.Run.Reports

/-!
# Writers with limits

A run with limited writers is compared with the run from the same tree whose writers take
everything. Each item of the record of that run adds its line to the text on one of the
two writers, or to neither (`RunOptions.text`). As long as the texts stay within the limits
the two runs cannot be told apart. The first item whose line goes beyond the limit of its
writer is the last one that the limited run comes to: that writer is filled to its limit
and its failure ends the run, the other holds the lines from before, and the file of the
item was updated like the ones in front of it (`advanceAll_cut`).

What holds a run together here is that both runs look at the same tree until one of them
stops, since a writer decides nothing but whether the run goes on.
-/

set_option autoImplicit false

namespace LowerComments

/-- The two writers of a run. -/
inductive Channel where
  /-- Updated files are reported here. -/
  | out
  /-- Faults are reported here. -/
  | err
  deriving DecidableEq, Repr

/-! ## Texts of a record -/

/-- What the files of a record add to a writer. -/
def RunOptions.text (options : RunOptions) (record : List (Path × Option Fault)) :
    Channel → Bytes
  | .out => options.processedLines ((record.filter fun item => item.2.isNone).map Prod.fst)
  | .err =>
    match options.onFailure with
    | .abort => []
    | .proceed => options.errorLines (record.filterMap Prod.snd)

@[simp] theorem RunOptions.text_nil (options : RunOptions) (channel : Channel) :
    options.text [] channel = [] := by
  cases channel with
  | out => rfl
  | err => cases policy : options.onFailure <;> simp [text, policy, errorLines]

@[simp] theorem RunOptions.text_append (options : RunOptions)
    (earlier later : List (Path × Option Fault)) (channel : Channel) :
    options.text (earlier ++ later) channel =
      options.text earlier channel ++ options.text later channel := by
  cases channel with
  | out => simp [text]
  | err => cases policy : options.onFailure <;> simp [text, policy]

/-- A file that was updated adds a line to the one writer. -/
theorem RunOptions.text_updated (options : RunOptions) (path : Path) (channel : Channel) :
    options.text [(path, none)] channel =
      match channel with
      | .out => Report.processedLine options.styled path
      | .err => [] := by
  cases channel with
  | out => exact List.flatMap_singleton ..
  | err => cases policy : options.onFailure <;> simp [text, policy, errorLines]

/-- A file that failed adds a line to the other writer if the run goes on. -/
theorem RunOptions.text_failed (options : RunOptions) (path : Path) (fault : Fault)
    (channel : Channel) :
    options.text [(path, some fault)] channel =
      match channel, options.onFailure with
      | .err, .proceed => Report.errorLine options.styled fault
      | _, _ => [] := by
  cases channel with
  | out => rfl
  | err => cases policy : options.onFailure <;> simp [text, policy, errorLines]

/-- No file adds to both writers. -/
theorem RunOptions.text_singleton_eq_nil {options : RunOptions} {item : Path × Option Fault}
    {channel other : Channel} (adds : options.text [item] channel ≠ []) (apart : other ≠ channel) :
    options.text [item] other = [] := by
  rcases item with ⟨path, _ | fault⟩
  · rw [text_updated] at adds ⊢
    cases channel <;> cases other <;> simp_all
  · rw [text_failed] at adds ⊢
    cases channel <;> cases other <;> simp_all

/-! ## Steps -/

namespace Progress

variable {options : RunOptions} {progress : Progress} {path : Path} {files : List Path}

/-- What a run has written on one of its writers. -/
def writer (progress : Progress) : Channel → Writer
  | .out => progress.out
  | .err => progress.err

/-- The progress with writers that take everything. -/
def unlimited (progress : Progress) : Progress :=
  { progress with out := progress.out.unlimited, err := progress.err.unlimited }

/-- The writers take the texts of a record. -/
def Holds (options : RunOptions) (progress : Progress) (record : List (Path × Option Fault)) :
    Prop :=
  ∀ channel, (progress.writer channel).fits (options.text record channel) = true

/-- The text of a record goes beyond what a writer takes. -/
def Overflows (options : RunOptions) (progress : Progress) (record : List (Path × Option Fault))
    (channel : Channel) : Prop :=
  ¬ (progress.writer channel).fits (options.text record channel) = true

/-- A file adds its own text to the writers, also to one that is filled by it. -/
theorem writer_advance (within : progress.Holds options []) (path : Path) (channel : Channel) :
    (progress.advance options path).1.writer channel =
      (progress.writer channel).put
        (options.text [(path, options.fault? progress.tree path)] channel) := by
  have same := Writer.put_nil (options.text_nil channel ▸ within channel)
  rw [advance_eq]
  cases options.fault? progress.tree path with
  | none =>
    rw [options.text_updated]
    cases channel with
    | out => rfl
    | err => exact same.symm
  | some fault =>
    rw [options.text_failed]
    cases policy : options.onFailure with
    | abort => cases channel <;> exact same.symm
    | proceed =>
      cases channel with
      | out => exact same.symm
      | err => rfl

/-- The text of a file that was updated fits when its line does. -/
theorem holds_updated (within : progress.Holds options []) (path : Path) :
    progress.Holds options [(path, none)] ↔
      progress.out.fits (Report.processedLine options.styled path) = true := by
  constructor
  · intro all
    have there := all .out
    rwa [options.text_updated] at there
  · intro takes channel
    rw [options.text_updated]
    cases channel with
    | out => exact takes
    | err => exact options.text_nil .err ▸ within .err

/-- The text of a file that failed fits when its line does, if there is one. -/
theorem holds_failed (within : progress.Holds options []) (path : Path) (fault : Fault) :
    progress.Holds options [(path, some fault)] ↔
      (options.onFailure = .proceed →
        progress.err.fits (Report.errorLine options.styled fault) = true) := by
  constructor
  · intro all policy
    have there := all .err
    rwa [options.text_failed, policy] at there
  · intro takes channel
    have empty := options.text_nil channel ▸ within channel
    rw [options.text_failed]
    cases policy : options.onFailure with
    | abort => cases channel <;> exact empty
    | proceed =>
      cases channel with
      | out => exact empty
      | err => exact takes policy

/-- **A file whose text does not fit stops the run** with the failure of its writer. Any other file
takes the run as far as the run with writers that take everything. -/
theorem advance_cut (within : progress.Holds options []) (path : Path) :
    progress.Holds options [(path, options.fault? progress.tree path)] ∧
        progress.unlimited.advance options path =
          ((progress.advance options path).1.unlimited, (progress.advance options path).2) ∨
      ∃ channel,
        progress.Overflows options [(path, options.fault? progress.tree path)] channel ∧
        (progress.advance options path).2 = some (.io (progress.writer channel).fault) ∧
        (progress.unlimited.advance options path).2 = none := by
  have same : progress.unlimited.tree = progress.tree := rfl
  rw [advance_eq, advance_eq, same]
  cases options.fault? progress.tree path with
  | none =>
    rw [holds_updated within]
    by_cases takes : progress.out.fits (Report.processedLine options.styled path) = true
    · exact .inl ⟨takes, by simp [unlimited, takes, Writer.unlimited_put takes]⟩
    · refine .inr ⟨.out, ?_, by simp [takes, writer], by simp [unlimited]⟩
      rwa [Overflows, options.text_updated]
  | some fault =>
    rw [holds_failed within]
    cases policy : options.onFailure with
    | abort => exact .inl ⟨by simp, rfl⟩
    | proceed =>
      by_cases takes : progress.err.fits (Report.errorLine options.styled fault) = true
      · exact .inl ⟨fun _ => takes, by simp [unlimited, takes, Writer.unlimited_put takes]⟩
      · refine .inr ⟨.err, ?_, by simp [takes, writer], by simp [unlimited]⟩
        rwa [Overflows, options.text_failed, policy]

/-! ## Whole lists of files -/

/-- After a file the writers hold no more than their limits. -/
theorem holds_nil_advance (within : progress.Holds options []) (path : Path) :
    (progress.advance options path).1.Holds options [] := by
  intro channel
  rw [writer_advance within, options.text_nil]
  exact Writer.fits_nil_put _ _

/-- **The writers end with the texts of the record.** -/
theorem writer_advanceAll (within : progress.Holds options []) (files : List Path)
    (channel : Channel) :
    (progress.advanceAll options files).1.writer channel =
      (progress.writer channel).put (options.text (progress.record options files) channel) := by
  induction files generalizing progress with
  | nil =>
    rw [advanceAll, record, options.text_nil,
      Writer.put_nil (options.text_nil channel ▸ within channel)]
  | cons path rest ih =>
    have here := writer_advance within path channel
    rcases step : progress.advance options path with ⟨next, _ | fault⟩
    · obtain ⟨goesOn, listed⟩ := advanceAll_cons_of_step step rest
      have withinNext := holds_nil_advance within path
      rw [step] at here withinNext
      rw [goesOn, listed, ih withinNext, here, Writer.put_put, ← options.text_append,
        List.singleton_append]
    · obtain ⟨stops, listed⟩ := advanceAll_cons_of_stop step rest
      rw [step] at here
      rw [stops, listed]
      exact here

/-- A writer takes the texts of two records when it takes the one and then the other. -/
theorem fits_cons {next : Progress} (within : progress.Holds options []) {stop : Option Fault}
    (step : progress.advance options path = (next, stop)) (later : List (Path × Option Fault))
    (channel : Channel) :
    (progress.writer channel).fits
        (options.text ((path, options.fault? progress.tree path) :: later) channel) = true ↔
      (progress.writer channel).fits
          (options.text [(path, options.fault? progress.tree path)] channel) = true ∧
        (next.writer channel).fits (options.text later channel) = true := by
  have there : next.writer channel = (progress.writer channel).put
      (options.text [(path, options.fault? progress.tree path)] channel) := by
    rw [← writer_advance within, step]
  rw [← List.singleton_append, options.text_append, Writer.fits_append, there]

theorem holds_cons {next : Progress} (within : progress.Holds options []) {stop : Option Fault}
    (step : progress.advance options path = (next, stop)) (later : List (Path × Option Fault)) :
    progress.Holds options ((path, options.fault? progress.tree path) :: later) ↔
      progress.Holds options [(path, options.fault? progress.tree path)] ∧
        next.Holds options later := by
  rw [Holds, Holds, Holds, ← forall_and]
  exact forall_congr' (fits_cons within step later)

/-- What goes beyond a writer later on does so from the start. -/
theorem Overflows.cons {next : Progress} {later : List (Path × Option Fault)} {channel : Channel}
    (overflows : next.Overflows options later channel) (within : progress.Holds options [])
    {stop : Option Fault} (step : progress.advance options path = (next, stop)) :
    progress.Overflows options ((path, options.fault? progress.tree path) :: later) channel :=
  fun takes => overflows ((fits_cons within step later channel).mp takes).2

/-- A writer keeps its failure. -/
theorem fault_writer_advance (within : progress.Holds options []) (path : Path)
    (channel : Channel) :
    ((progress.advance options path).1.writer channel).fault =
      (progress.writer channel).fault := by
  rw [writer_advance within]
  rfl

/-- **A limited run is the run with writers that take everything, or its beginning** up to the
first file whose text does not fit. It ends there with the failure of the writer that is full. -/
theorem advanceAll_cut (within : progress.Holds options []) (files : List Path) :
    progress.Holds options (progress.unlimited.record options files) ∧
        progress.unlimited.advanceAll options files =
          ((progress.advanceAll options files).1.unlimited,
            (progress.advanceAll options files).2) ∨
      ∃ earlier item later channel,
        progress.unlimited.record options files = earlier ++ item :: later ∧
        progress.Holds options earlier ∧
        progress.Overflows options (earlier ++ [item]) channel ∧
        (progress.advanceAll options files).2 = some (.io (progress.writer channel).fault) ∧
        progress.record options files = earlier ++ [item] := by
  induction files generalizing progress with
  | nil => exact .inl ⟨within, rfl⟩
  | cons path rest ih =>
    have withinNext := holds_nil_advance within path
    have sameFault := fault_writer_advance within path
    rcases step : progress.advance options path with ⟨next, stop⟩
    rw [step] at withinNext
    simp only [step] at sameFault
    rcases advance_cut within path with ⟨takes, free⟩ | ⟨channel, overflows, stops, free⟩
    · rw [step] at free
      cases stop with
      | some fault =>
        obtain ⟨ends, _⟩ := advanceAll_cons_of_stop step rest
        obtain ⟨endsFree, listed⟩ := advanceAll_cons_of_stop free rest
        rw [ends, endsFree, listed]
        exact .inl ⟨takes, rfl⟩
      | none =>
        obtain ⟨goesOn, listed⟩ := advanceAll_cons_of_step step rest
        obtain ⟨goesOnFree, listedFree⟩ := advanceAll_cons_of_step free rest
        have holds := holds_cons within step
        rw [goesOn, goesOnFree, listed, listedFree]
        rcases ih withinNext with
          ⟨all, ends⟩ | ⟨earlier, item, later, channel, parts, front, overflows, full, ends⟩
        · exact .inl ⟨(holds _).mpr ⟨takes, all⟩, ends⟩
        · refine .inr ⟨(path, options.fault? progress.tree path) :: earlier, item, later, channel,
            ?_, (holds _).mpr ⟨takes, front⟩, overflows.cons within step, ?_, ?_⟩
          · rw [parts]; rfl
          · rw [full, sameFault]
          · rw [ends]; rfl
    · obtain rfl : stop = some (.io (progress.writer channel).fault) := by rw [← stops, step]
      obtain ⟨ends, listed⟩ := advanceAll_cons_of_stop step rest
      rw [ends, listed]
      rcases freely : progress.unlimited.advance options path with ⟨nextFree, stopFree⟩
      obtain rfl : stopFree = none := by rw [← free, freely]
      obtain ⟨_, listedFree⟩ := advanceAll_cons_of_step freely rest
      exact .inr ⟨[], _, _, channel, listedFree, within, overflows, rfl, rfl⟩

end Progress

/-! ## Runs over a directory -/

/-- What a run has written on one of its writers. -/
def RunResult.writer (ended : RunResult) : Channel → Writer
  | .out => ended.out
  | .err => ended.err

/-- The texts of a record stay within the limits of the writers. -/
def RunOptions.Fits (options : RunOptions) (limits : Channel → Option Nat)
    (record : List (Path × Option Fault)) : Prop :=
  ∀ channel limit, limits channel = some limit → (options.text record channel).length ≤ limit

/-- The start of a run whose writers have these limits and failures and nothing on them. -/
def Progress.start (tree : Tree) (limits : Channel → Option Nat) (faults : Channel → IoFault) :
    Progress where
  tree := tree
  out := { limit := limits .out, fault := faults .out }
  err := { limit := limits .err, fault := faults .err }

section Runs

variable {options : RunOptions} {tree : Tree} {limits : Channel → Option Nat}
  {faults : Channel → IoFault} {channel : Channel}
  {record earlier later : List (Path × Option Fault)} {item : Path × Option Fault}

/-! ### Texts within limits -/

theorem RunOptions.fits_of_append (fits : options.Fits limits (earlier ++ later)) :
    options.Fits limits earlier := by
  intro channel limit here
  have whole := fits channel limit here
  rw [options.text_append, List.length_append] at whole
  omega

/-- What stays within its limit is taken as it is. -/
theorem RunOptions.Fits.take_eq (fits : options.Fits limits record) (channel : Channel) :
    Writer.take { limit := limits channel } (options.text record channel) =
      options.text record channel := by
  rw [Writer.take]
  cases limited : limits channel with
  | none => rfl
  | some limit => exact List.take_of_length_le (fits channel limit limited)

/-! ### From the start -/

theorem Progress.writer_start (tree : Tree) (limits : Channel → Option Nat)
    (faults : Channel → IoFault) (channel : Channel) :
    (Progress.start tree limits faults).writer channel =
      { limit := limits channel, fault := faults channel } := by
  cases channel <;> rfl

/-- Writers with nothing on them take what stays within their limits. -/
theorem Progress.holds_start_iff :
    (Progress.start tree limits faults).Holds options record ↔ options.Fits limits record := by
  refine forall_congr' fun channel => ?_
  rw [Progress.writer_start, Writer.fits]
  cases limits channel <;> simp

/-- What goes beyond a writer with nothing on it is longer than its limit. -/
theorem Progress.overflows_start_iff :
    (Progress.start tree limits faults).Overflows options record channel ↔
      ∃ limit, limits channel = some limit ∧ limit < (options.text record channel).length := by
  rw [Progress.Overflows, Progress.writer_start, Writer.fits]
  cases limits channel <;> simp

theorem Progress.holds_nil_start : (Progress.start tree limits faults).Holds options [] :=
  Progress.holds_start_iff.mpr fun channel limit _ => by simp

/-- **A run ends with the first bytes of the texts of its record** on writers that had nothing on
them. -/
theorem written_run {root : Path} {files : List Path}
    (found : discover tree options.target root = .ok files) (limits : Channel → Option Nat)
    (faults : Channel → IoFault) (channel : Channel) :
    let start := Progress.start tree limits faults
    ((run options tree root start.out start.err).writer channel).written =
      Writer.take { limit := limits channel }
        (options.text (options.record tree root start.out start.err) channel) := by
  intro start
  have ended := congrArg Writer.written (Progress.writer_advanceAll
    (Progress.holds_nil_start : start.Holds options []) files channel)
  rw [Progress.writer_start] at ended
  rw [run_of_discover found, record_of_discover found]
  cases channel <;> exact ended

/-- **A run within the limits is the run with writers that take everything.** -/
theorem run_of_fits {root : Path} {files : List Path}
    (found : discover tree options.target root = .ok files) (faults : Channel → IoFault)
    (fits : options.Fits limits (options.record tree root {} {})) :
    let start := Progress.start tree limits faults
    let free := run options tree root {} {}
    let limited := run options tree root start.out start.err
    limited.result = free.result ∧ limited.tree = free.tree ∧
      ∀ channel, (limited.writer channel).written = (free.writer channel).written := by
  intro start free limited
  have freely : options.record tree root {} {} = start.unlimited.record options files :=
    record_of_discover found
  rw [freely] at fits
  rcases start.advanceAll_cut Progress.holds_nil_start files with
    ⟨_, same⟩ | ⟨earlier, item, later, channel, parts, _, overflows, _⟩
  · let ended := start.advanceAll options files
    have limitedRun : limited = ended.1.finish (ended.1.ending files.length ended.2) :=
      run_of_discover found
    have endedFree : Progress.advanceAll options { tree := tree, out := {}, err := {} } files =
        (ended.1.unlimited, ended.2) := same
    have freeRun : free = _ := run_of_discover found
    rw [endedFree] at freeRun
    rw [limitedRun, freeRun]
    exact ⟨rfl, rfl, fun channel => by cases channel <;> rfl⟩
  · rw [parts, List.append_cons] at fits
    exact absurd (Progress.holds_start_iff.mpr (RunOptions.fits_of_append fits) channel) overflows

/-- **A run beyond the limits ends with the first item that does not fit**, and with the failure of
the writer that does not take it. -/
theorem run_of_not_fits {root : Path} {files : List Path}
    (found : discover tree options.target root = .ok files) (faults : Channel → IoFault)
    (beyond : ¬ options.Fits limits (options.record tree root {} {})) :
    let start := Progress.start tree limits faults
    let limited := run options tree root start.out start.err
    ∃ earlier item later channel limit,
      options.record tree root {} {} = earlier ++ item :: later ∧
      options.Fits limits earlier ∧ limits channel = some limit ∧
      limit < (options.text (earlier ++ [item]) channel).length ∧
      limited.result = .error (.io (faults channel)) ∧
      options.record tree root start.out start.err = earlier ++ [item] := by
  intro start limited
  have freely : options.record tree root {} {} = start.unlimited.record options files :=
    record_of_discover found
  rcases start.advanceAll_cut Progress.holds_nil_start files with
    ⟨takes, _⟩ | ⟨earlier, item, later, channel, parts, front, overflows, full, ends⟩
  · rw [← freely] at takes
    exact absurd (Progress.holds_start_iff.mp takes) beyond
  · obtain ⟨limit, bounded, long⟩ := Progress.overflows_start_iff.mp overflows
    refine ⟨earlier, item, later, channel, limit, freely.trans parts,
      Progress.holds_start_iff.mp front, bounded, long, ?_, (record_of_discover found).trans ends⟩
    have stopped : limited.result = Progress.ending _ files.length
        (start.advanceAll options files).2 :=
      congrArg RunResult.result (run_of_discover found)
    rw [stopped, full, Progress.ending, Progress.writer_start]

/-- An item whose text goes beyond the limit of one writer adds nothing to the other. -/
theorem RunOptions.text_other {limit : Nat} (fits : options.Fits limits earlier)
    (bounded : limits channel = some limit)
    (long : limit < (options.text (earlier ++ [item]) channel).length) {other : Channel}
    (apart : other ≠ channel) : options.text [item] other = [] := by
  refine text_singleton_eq_nil (fun nothing => ?_) apart
  have front := fits channel limit bounded
  rw [options.text_append, nothing, List.append_nil] at long
  omega

end Runs

/-- **A writer that is full cuts a run at one file.** The run with writers that take everything
leaves the texts of its record on them. If these stay within the limits, the run with limited
writers is the same. Otherwise the first item of the record that goes beyond a limit is the last
one to which the limited run comes: it ends with the failure of that writer, which is filled to
its limit, the other writer holds the text from before the item, and the files up to and including
the one of the item were updated. -/
theorem run_cut (options : RunOptions) (tree : Tree) (root : Path)
    (limits : Channel → Option Nat) (faults : Channel → IoFault) {files : List Path}
    (found : discover tree options.target root = .ok files) :
    let free := run options tree root {} {}
    let record := options.record tree root {} {}
    let limited := run options tree root { limit := limits .out, fault := faults .out }
      { limit := limits .err, fault := faults .err }
    (∀ channel, (free.writer channel).written = options.text record channel) ∧
      (options.Fits limits record → limited.result = free.result ∧ limited.tree = free.tree ∧
        ∀ channel, (limited.writer channel).written = (free.writer channel).written) ∧
      (¬ options.Fits limits record → ∃ earlier path verdict later channel limit,
        record = earlier ++ (path, verdict) :: later ∧
        earlier.map Prod.fst ++ [path] <+: files ∧
        options.Fits limits earlier ∧ limits channel = some limit ∧
        limit < (options.text (earlier ++ [(path, verdict)]) channel).length ∧
        limited.result = .error (.io (faults channel)) ∧
        (limited.writer channel).written = (free.writer channel).written.take limit ∧
        (∀ other, other ≠ channel → (limited.writer other).written = options.text earlier other) ∧
        limited.tree = options.updateAll tree (earlier.map Prod.fst ++ [path])) := by
  intro free record limited
  have freeWritten (channel : Channel) :
      (free.writer channel).written = options.text record channel :=
    written_run found (fun _ => none) (fun _ => .reportFull) channel
  refine ⟨freeWritten, run_of_fits found faults, fun beyond => ?_⟩
  obtain ⟨earlier, ⟨path, verdict⟩, later, channel, limit, parts, fits, bounded, long, full,
    ends⟩ := run_of_not_fits found faults beyond
  have written := written_run found limits faults
  have updated := run_tree options tree root (Progress.start tree limits faults).out
    (Progress.start tree limits faults).err
  have firsts := Progress.record_prefix options (Progress.start tree limits faults) files
  rw [show Progress.record options (Progress.start tree limits faults) files =
    earlier ++ [(path, verdict)] from (record_of_discover found).symm.trans ends] at firsts
  rw [ends] at updated
  simp only [ends] at written
  rw [List.map_append] at firsts updated
  refine ⟨earlier, path, verdict, later, channel, limit, parts, firsts, fits, bounded, long, full,
    ?_, fun other apart => ?_, updated⟩
  · have whole : record = (earlier ++ [(path, verdict)]) ++ later := by
      rw [List.append_assoc, List.singleton_append]
      exact parts
    refine (written channel).trans ?_
    rw [freeWritten channel, whole, options.text_append _ later, Writer.take, bounded]
    exact (List.take_append_of_le_length long.le).symm
  · refine (written other).trans ?_
    rw [options.text_append, RunOptions.text_other fits bounded long apart, List.append_nil,
      fits.take_eq]

/-- Three files with the report of the second one cut in its line. The third one, which would have
failed, is not reported, and the run ends with the failure of the writer that is full. -/
theorem run_cut_linkedTree :
    let limits : Channel → Option Nat := fun channel => if channel = .out then some 20 else none
    let faults : Channel → IoFault :=
      fun channel => if channel = .out then .system .inputOutput else .reportFull
    let limited := run { onFailure := .proceed } linkedTree (Bytes.ofString ".")
      { limit := limits .out, fault := faults .out } { limit := limits .err, fault := faults .err }
    limited.result = .error (.io (.system .inputOutput)) ∧
      limited.out.written = Bytes.ofString "Processed: a.lua\nPro" ∧
      limited.err.written = [] := by
  intro limits faults limited
  have found : discover linkedTree .lua (Bytes.ofString ".") =
      .ok [Bytes.ofString "./a.lua", Bytes.ofString "./b.lua", Bytes.ofString "./c.lua"] := rfl
  obtain ⟨_, _, cut⟩ :=
    run_cut { onFailure := .proceed } linkedTree (Bytes.ofString ".") limits faults found
  have beyond : ¬ RunOptions.Fits { onFailure := .proceed } limits
      (RunOptions.record { onFailure := .proceed } linkedTree (Bytes.ofString ".") {} {}) :=
    fun fits => absurd (fits .out 20 rfl) (by decide +kernel)
  obtain ⟨_, _, _, _, channel, _, _, _, _, bounded, _, full, _⟩ := cut beyond
  -- Only one writer has a limit, and so it is the one whose failure ends the run.
  have whose : channel = .out := by
    cases channel with
    | out => rfl
    | err => exact absurd bounded (by simp [limits])
  subst whose
  exact ⟨full, by decide +kernel, by decide +kernel⟩

end LowerComments
