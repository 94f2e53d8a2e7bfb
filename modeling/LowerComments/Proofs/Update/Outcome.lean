import LowerComments.Proofs.Comment.LineByLine
import LowerComments.Proofs.Tree.Interruption
import LowerComments.Proofs.Update.Verdict
import LowerComments.Proofs.Utf8.WellFormed

/-!
# What comes out of updating one file

An update ends in one of four ways, and each stage decides in turn: the path is read, the
bytes are read as a text, and the text in lower case is written back
(`updateFileUnder_eq_error_iff`, `updateFileUnder_eq_ok_iff`). An update that fails leaves the
tree unchanged (`unchanged_of_updateFileUnder`), and one that succeeds has left the new bytes
under the path (`read_of_updateFileUnder`).

Writing back may fail for reasons that are not in the tree. A `Disturbance` is what may go
wrong then: the opening of the file that is to be written in place is refused, or its bytes
break off, or a step of its replacement is refused. An update without disturbances is the
update of the library (`updateFileUnder_undisturbed`). Of all these failures, bytes that
break off in place are the only ones that can be seen afterwards.
-/

set_option autoImplicit false

namespace LowerComments

/-! ## Writing back under disturbances -/

/-- What may go wrong while a file is written back, and the parts in which the bytes reach a
temporary file. -/
structure Disturbance where
  /-- The refusal to open the file in place. -/
  opening : Option IoFault := none
  /-- How many bytes reach the file that was opened in place, and what stops the others. -/
  breaking : Option (Nat × IoFault) := none
  /-- The refusals of steps of a replacement. -/
  step : ReplaceStep → Option IoFault := fun _ => none
  parts : Bytes → List Bytes := fun bytes => [bytes]
  flatten_parts : ∀ bytes, (parts bytes).flatten = bytes := by simp

/-- The bytes break off in a file that was opened in place. -/
structure Disturbance.BreaksOff (disturbance : Disturbance) (strategy : Strategy)
    (fault : IoFault) : Prop where
  inPlace : strategy = .inPlace
  opened : disturbance.opening = none
  breaking : ∃ front, disturbance.breaking = some (front, fault)

/-- Writes the bytes of a file back under a disturbance. -/
def Tree.storeUnder (disturbance : Disturbance) (tree : Tree) (strategy : Strategy) (path : Path)
    (content : Bytes) : Except IoFault Unit × Tree :=
  match strategy, disturbance.opening, disturbance.breaking with
  | .atomic, _, _ => tree.replaceUnder disturbance.step path (disturbance.parts content)
  | .inPlace, some fault, _ => (.error fault, tree)
  | .inPlace, none, none => tree.store .inPlace path content
  | .inPlace, none, some (front, fault) =>
    match tree.store .inPlace path (content.take front) with
    | (.ok (), begun) => (.error fault, begun)
    | (.error refusal, after) => (.error refusal, after)

theorem Tree.storeUnder_atomic (disturbance : Disturbance) (tree : Tree) (path : Path)
    (content : Bytes) : tree.storeUnder disturbance .atomic path content =
      tree.replaceUnder disturbance.step path (disturbance.parts content) := rfl

/-- Reads a file, lower-cases its comments and writes it back under a disturbance. -/
def updateFileUnder (disturbance : Disturbance) (target : Target) (strategy : Strategy)
    (tree : Tree) (path : Path) : Except Fault Outcome × Tree :=
  match tree.read path with
  | .error cause => (.error (.read path cause), tree)
  | .ok bytes =>
    match Utf8.decode bytes with
    | .error cause => (.error (.decode path cause), tree)
    | .ok text =>
      let lowered := Comment.lowerComments target.marker text
      match tree.storeUnder disturbance strategy path (Utf8.encode lowered.text) with
      | (.error cause, after) => (.error (.write path cause), after)
      | (.ok (), after) => (.ok ⟨path, lowered.lines, lowered.changedLines⟩, after)

/-- **An update that nothing disturbs** is the update of the file. -/
theorem updateFileUnder_undisturbed (target : Target) (strategy : Strategy) (tree : Tree)
    (path : Path) :
    updateFileUnder {} target strategy tree path = updateFile target strategy tree path := by
  have stored (content : Bytes) :
      tree.storeUnder {} strategy path content = tree.store strategy path content := by
    cases strategy <;> rfl
  cases read : tree.read path with
  | error cause => simp only [updateFileUnder, updateFile, read]
  | ok bytes =>
    cases decoded : Utf8.decode bytes with
    | error cause => simp only [updateFileUnder, updateFile, read, decoded]
    | ok text =>
      let lowered := Comment.lowerComments target.marker text
      rcases ended : tree.store strategy path (Utf8.encode lowered.text) with ⟨_ | _, after⟩
      · simp only [updateFileUnder, updateFile, read, decoded, stored, lowered, ended]
      · simp only [updateFileUnder, updateFile, read, decoded, stored, lowered, ended]

/-! ## A refusal changes nothing -/

section Store

variable {disturbance : Disturbance} {tree : Tree} {strategy : Strategy} {path : Path}
  {content : Bytes}

/-- A file in place is written or left as it is. -/
theorem store_inPlace_of_error {fault : IoFault}
    (refused : (tree.store .inPlace path content).1 = .error fault) :
    (tree.store .inPlace path content).2 = tree := by
  unfold Tree.store at refused ⊢
  cases written : tree.write path content with
  | ok after => simp [written] at refused
  | error cause => rfl

/-- **Bytes that cannot be written back leave the tree unchanged**, unless they break off in
place. -/
theorem unchanged_of_storeUnder {fault : IoFault}
    (refused : (tree.storeUnder disturbance strategy path content).1 = .error fault) :
    Unchanged tree (tree.storeUnder disturbance strategy path content).2 ∨
      disturbance.BreaksOff strategy fault := by
  cases strategy with
  | atomic =>
    rw [Tree.storeUnder_atomic] at refused ⊢
    exact .inl (Tree.unchanged_of_replaceUnder refused)
  | inPlace =>
    unfold Tree.storeUnder at refused ⊢
    cases opening : disturbance.opening with
    | some cause => exact .inl (Unchanged.refl tree)
    | none =>
      cases breaking : disturbance.breaking with
      | none =>
        simp only [opening, breaking] at refused ⊢
        rw [store_inPlace_of_error refused]
        exact .inl (Unchanged.refl tree)
      | some broken =>
        obtain ⟨front, cause⟩ := broken
        simp only [opening, breaking] at refused ⊢
        rcases begun : tree.store .inPlace path (content.take front) with ⟨_ | _, after⟩
        · have same := store_inPlace_of_error (congrArg Prod.fst begun)
          rw [begun] at same
          rw [same]
          exact .inl (Unchanged.refl tree)
        · simp only [begun, Except.error.injEq] at refused
          exact .inr ⟨rfl, opening, front, by rw [breaking, refused]⟩

/-! ## What is read afterwards -/

/-- A path that led to the exchanged file leads to the new one. -/
theorem Tree.Exchanged.leadsTo {before after : Tree} {place : Place} {file : File}
    (exchanged : Tree.Exchanged before place content after)
    (leads : before.LeadsTo path place file) :
    after.LeadsTo path place { content := content, mode := before.fileMode place } := by
  refine ⟨?_, Tree.see?_eq_some_file_iff.mp exchanged.renewed⟩
  rw [← leads.locate]
  refine Tree.locate_congr exchanged.workingDirectory (fun other => ?_) true path
  rw [Tree.way_entryAt, Tree.way_entryAt]
  by_cases here : other = place
  · rw [here, exchanged.renewed, Tree.see?_eq_some_file_iff.mpr leads.file?]
    rfl
  · rw [exchanged.others other here]

theorem unreadable_withContent (file : File) (content : Bytes) :
    (Tree.withContent file content).unreadable = file.unreadable := by
  unfold Tree.withContent
  split <;> rfl

/-- A file gives the bytes that were written into it. -/
theorem bytes_withContent {file : File} (device : file.isRegular = false → content = []) :
    (Tree.withContent file content).bytes = content := by
  unfold Tree.withContent File.bytes
  cases regular : file.isRegular with
  | true => simp
  | false => simp [regular, device regular]

/-- **Bytes that were written back are read under the path.** A device keeps no bytes, and it
gives none. -/
theorem read_of_storeUnder {place : Place} {file : File} (leads : tree.LeadsTo path place file)
    (readable : file.unreadable = none) (device : file.isRegular = false → content = [])
    (stored : (tree.storeUnder disturbance strategy path content).1 = .ok ()) :
    (tree.storeUnder disturbance strategy path content).2.read path = .ok content := by
  cases strategy with
  | atomic =>
    rw [Tree.storeUnder_atomic] at stored ⊢
    obtain ⟨target, entry, found, exchanged⟩ := Tree.exchanged_of_replaceUnder stored
    obtain rfl : place = target :=
      Except.ok.inj (leads.locate.symm.trans (Tree.find_eq_ok_iff.mp found).1)
    have whole := (exchanged.leadsTo leads).read_of_readable rfl
    rw [disturbance.flatten_parts] at whole
    exact whole
  | inPlace =>
    unfold Tree.storeUnder at stored ⊢
    cases opening : disturbance.opening with
    | some cause => simp [opening] at stored
    | none =>
      cases breaking : disturbance.breaking with
      | some broken =>
        simp only [opening, breaking] at stored
        split at stored <;> exact absurd stored (by simp)
      | none =>
        simp only [opening, breaking] at stored ⊢
        cases free : tree.storeFault? .inPlace place file with
        | some cause =>
          rw [Tree.store_of_fault leads free] at stored
          exact absurd stored (by simp)
        | none =>
          obtain ⟨after, written, holds⟩ := Tree.store_of_no_fault leads free content
          have held := holds.reached place (Tree.reaches_self leads.file? .inPlace)
          rw [leads.file?, Option.map_some] at held
          have again : after.LeadsTo path place (Strategy.rewrite .inPlace content file) :=
            ⟨(holds.shape.locate true path).trans leads.locate, held⟩
          have whole :=
            again.read_of_readable ((unreadable_withContent file content).trans readable)
          rw [written, whole, Strategy.rewrite, bytes_withContent device]

end Store

/-! ## The stages -/

section Stages

variable (disturbance : Disturbance) (target : Target) (strategy : Strategy) {tree : Tree}
  {path : Path} {bytes : Bytes} {text : List Char}

/-- The bytes that an update writes back for a text. -/
def Target.loweredBytes (target : Target) (text : List Char) : Bytes :=
  Utf8.encode (Comment.lowerComments target.marker text).text

/-- What an update that succeeds says about the text that it read. -/
def Target.outcome (target : Target) (path : Path) (text : List Char) : Outcome :=
  ⟨path, (Comment.lowerComments target.marker text).lines,
    (Comment.lowerComments target.marker text).changedLines⟩

theorem updateFileUnder_of_unread {cause : IoFault} (unread : tree.read path = .error cause) :
    updateFileUnder disturbance target strategy tree path = (.error (.read path cause), tree) := by
  simp only [updateFileUnder, unread]

theorem updateFileUnder_of_undecoded {cause : Utf8.Fault} (read : tree.read path = .ok bytes)
    (undecoded : Utf8.decode bytes = .error cause) :
    updateFileUnder disturbance target strategy tree path =
      (.error (.decode path cause), tree) := by
  simp only [updateFileUnder, read, undecoded]

theorem updateFileUnder_of_text (read : tree.read path = .ok (Utf8.encode text)) :
    updateFileUnder disturbance target strategy tree path =
      match tree.storeUnder disturbance strategy path (target.loweredBytes text) with
      | (.error cause, after) => (.error (.write path cause), after)
      | (.ok (), after) => (.ok (target.outcome path text), after) := by
  rcases ended : tree.storeUnder disturbance strategy path (target.loweredBytes text) with
    ⟨_ | _, after⟩
  · rw [Target.loweredBytes] at ended
    simp only [updateFileUnder, read, Utf8.decode_encode, ended]
  · rw [Target.loweredBytes] at ended
    simp only [updateFileUnder, read, Utf8.decode_encode, ended, Target.outcome]

/-- A path is not read, or not as a text, or it is read as one. -/
theorem read_cases (tree : Tree) (path : Path) :
    (∃ cause, tree.read path = .error cause) ∨
    (∃ bytes cause, tree.read path = .ok bytes ∧ Utf8.decode bytes = .error cause) ∨
    (∃ text, tree.read path = .ok (Utf8.encode text)) := by
  cases read : tree.read path with
  | error cause => exact .inl ⟨cause, rfl⟩
  | ok bytes =>
    cases decoded : Utf8.decode bytes with
    | error cause => exact .inr (.inl ⟨bytes, cause, rfl, decoded⟩)
    | ok text => exact .inr (.inr ⟨text, by rw [Utf8.decode_eq_ok_iff.mp decoded]⟩)

/-- A path that is read as a text is read as no other. -/
theorem text_unique {other : List Char} (read : tree.read path = .ok (Utf8.encode text))
    (again : tree.read path = .ok (Utf8.encode other)) : text = other :=
  Utf8.encode_injective (Except.ok.inj (read.symm.trans again))

/-- **The fault of an update is that of the first stage that fails.** -/
theorem updateFileUnder_eq_error_iff {fault : Fault} :
    (updateFileUnder disturbance target strategy tree path).1 = .error fault ↔
      (∃ cause, tree.read path = .error cause ∧ fault = .read path cause) ∨
      (∃ bytes cause, tree.read path = .ok bytes ∧ Utf8.decode bytes = .error cause ∧
        fault = .decode path cause) ∨
      (∃ text cause, tree.read path = .ok (Utf8.encode text) ∧
        (tree.storeUnder disturbance strategy path (target.loweredBytes text)).1 = .error cause ∧
        fault = .write path cause) := by
  rcases read_cases tree path with ⟨cause, unread⟩ | ⟨bytes, cause, read, undecoded⟩ | ⟨text, read⟩
  · simp [updateFileUnder_of_unread _ _ _ unread, unread, eq_comm]
  · rw [updateFileUnder_of_undecoded _ _ _ read undecoded]
    simp [read, undecoded, Utf8.ne_encode_of_fault undecoded, eq_comm]
  · rw [updateFileUnder_of_text _ _ _ read]
    rcases stored : tree.storeUnder disturbance strategy path (target.loweredBytes text) with
      ⟨cause | _, after⟩
    · simp [read, Utf8.encode_inj, stored, Utf8.decode_encode, eq_comm]
    · simp [read, Utf8.encode_inj, stored, Utf8.decode_encode]

/-- **An update succeeds when a text is read and written back**, and it counts the lines of that
text. -/
theorem updateFileUnder_eq_ok_iff {outcome : Outcome} :
    (updateFileUnder disturbance target strategy tree path).1 = .ok outcome ↔
      ∃ text, tree.read path = .ok (Utf8.encode text) ∧
        (tree.storeUnder disturbance strategy path (target.loweredBytes text)).1 = .ok () ∧
        outcome = target.outcome path text := by
  rcases read_cases tree path with ⟨cause, unread⟩ | ⟨bytes, cause, read, undecoded⟩ | ⟨text, read⟩
  · simp [updateFileUnder_of_unread _ _ _ unread, unread]
  · rw [updateFileUnder_of_undecoded _ _ _ read undecoded]
    refine ⟨fun succeeds => absurd succeeds (by simp), ?_⟩
    rintro ⟨text, again, _⟩
    exact absurd (Except.ok.inj (read.symm.trans again)) (Utf8.ne_encode_of_fault undecoded text)
  · rw [updateFileUnder_of_text _ _ _ read]
    constructor
    · intro succeeds
      refine ⟨text, read, ?_⟩
      rcases stored : tree.storeUnder disturbance strategy path (target.loweredBytes text) with
        ⟨cause | _, after⟩
      · simp [stored] at succeeds
      · rw [stored] at succeeds
        exact ⟨rfl, (Except.ok.inj succeeds).symm⟩
    · rintro ⟨other, again, stored, rfl⟩
      obtain rfl := text_unique read again
      rcases ended : tree.storeUnder disturbance strategy path (target.loweredBytes text) with
        ⟨cause | _, after⟩
      · simp [ended] at stored
      · rfl

end Stages

/-! ## The four ends of an update -/

section Ends

variable {disturbance : Disturbance} {target : Target} {strategy : Strategy} {tree : Tree}
  {path : Path}

/-- **An update that fails leaves the tree unchanged**, unless the bytes that it writes back break
off in place. -/
theorem unchanged_of_updateFileUnder {fault : Fault}
    (failed : (updateFileUnder disturbance target strategy tree path).1 = .error fault) :
    Unchanged tree (updateFileUnder disturbance target strategy tree path).2 ∨
      ∃ cause, fault = .write path cause ∧ disturbance.BreaksOff strategy cause := by
  rcases updateFileUnder_eq_error_iff disturbance target strategy |>.mp failed with
    ⟨cause, unread, rfl⟩ | ⟨bytes, cause, read, undecoded, rfl⟩ | ⟨text, cause, read, refused, rfl⟩
  · rw [updateFileUnder_of_unread _ _ _ unread]
    exact .inl (Unchanged.refl tree)
  · rw [updateFileUnder_of_undecoded _ _ _ read undecoded]
    exact .inl (Unchanged.refl tree)
  · rw [updateFileUnder_of_text _ _ _ read]
    have same := unchanged_of_storeUnder refused
    rcases stored : tree.storeUnder disturbance strategy path (target.loweredBytes text) with
      ⟨stopped | _, after⟩
    · rw [stored] at same
      exact same.imp_right fun breaks => ⟨cause, rfl, breaks⟩
    · simp [stored] at refused

/-- A fault of reading or of decoding comes before anything is written. -/
theorem updateFileUnder_eq_of_not_write {fault : Fault}
    (failed : (updateFileUnder disturbance target strategy tree path).1 = .error fault)
    (early : ∀ cause, fault ≠ .write path cause) :
    (updateFileUnder disturbance target strategy tree path).2 = tree := by
  rcases updateFileUnder_eq_error_iff disturbance target strategy |>.mp failed with
    ⟨cause, unread, rfl⟩ | ⟨bytes, cause, read, undecoded, rfl⟩ | ⟨text, cause, _, _, rfl⟩
  · rw [updateFileUnder_of_unread _ _ _ unread]
  · rw [updateFileUnder_of_undecoded _ _ _ read undecoded]
  · exact absurd rfl (early cause)

/-- **An update that nothing disturbs leaves the very tree behind when it fails.** -/
theorem updateFile_eq_of_error {fault : Fault}
    (failed : (updateFile target strategy tree path).1 = .error fault) :
    (updateFile target strategy tree path).2 = tree := by
  cases read : tree.read path with
  | error cause => simp only [updateFile, read]
  | ok bytes =>
    obtain ⟨place, file, leads, _, _⟩ := Tree.read_eq_ok_iff.mp read
    cases refused : tree.updateFault? strategy path place file with
    | some cause => rw [updateFile_of_fault leads refused]
    | none =>
      obtain ⟨_, outcome, after, _, _, updated, _⟩ := updateFile_of_no_fault leads refused target
      rw [updated] at failed
      exact absurd failed (by simp)

/-- **An update that succeeds has left the bytes of the text in lower case under the path.** -/
theorem read_of_updateFileUnder {text : List Char}
    (read : tree.read path = .ok (Utf8.encode text))
    (stored : (tree.storeUnder disturbance strategy path (target.loweredBytes text)).1 = .ok ()) :
    (updateFileUnder disturbance target strategy tree path).2.read path =
      .ok (target.loweredBytes text) := by
  obtain ⟨place, file, leads, readable, bytes⟩ := Tree.read_eq_ok_iff.mp read
  -- A device gives no bytes, and the text that was read there is empty.
  have device (irregular : file.isRegular = false) : target.loweredBytes text = [] := by
    have nothing : Utf8.encode text = Utf8.encode [] := by
      rw [bytes, File.bytes, irregular]
      rfl
    rw [Utf8.encode_injective nothing]
    rfl
  have whole := read_of_storeUnder leads readable device stored
  rw [updateFileUnder_of_text _ _ _ read]
  rcases ended : tree.storeUnder disturbance strategy path (target.loweredBytes text) with
    ⟨cause | _, after⟩
  · simp [ended] at stored
  · rwa [ended] at whole

/-- The bytes in lower case are the bytes that were read when no line changes. -/
theorem Target.changedLines_outcome (target : Target) (path : Path) (text : List Char) :
    (target.outcome path text).changedLines = 0 ↔
      target.loweredBytes text = Utf8.encode text := by
  rw [Target.outcome, Target.loweredBytes, Comment.changedLines_eq_zero_iff]
  exact ⟨congrArg Utf8.encode, Utf8.encode_injective⟩

end Ends

/-- **An update ends at the first stage that fails, and only one that succeeds is seen.** It fails
to read what leads to no file that can be read, and to decode bytes that are not well-formed,
telling how long their longest well-formed front is. It fails to write what cannot be written
back, whatever disturbs it, and nothing else makes it fail. A failure leaves the tree as it was,
except for bytes that break off in a file opened in place. An update that succeeds names its path
and counts the lines of the text that it read. The path then gives the bytes of that text in lower
case, and these are the bytes from before exactly when no line counts as changed. -/
theorem updateFileUnder_ends (disturbance : Disturbance) (target : Target) (strategy : Strategy)
    (tree : Tree) (path : Path) :
    let ended := updateFileUnder disturbance target strategy tree path
    updateFileUnder {} target strategy tree path = updateFile target strategy tree path ∧
    (∀ fault, ended.1 = .error fault ↔
      (∃ cause, tree.read path = .error cause ∧ fault = .read path cause) ∨
      (∃ bytes cause, tree.read path = .ok bytes ∧ Utf8.decode bytes = .error cause ∧
        fault = .decode path cause) ∨
      (∃ text cause, tree.read path = .ok (Utf8.encode text) ∧
        (tree.storeUnder disturbance strategy path
          (Utf8.encode (Comment.lowerComments target.marker text).text)).1 = .error cause ∧
        fault = .write path cause)) ∧
    ((∃ cause, tree.read path = .error cause) ↔
      ∀ place file, tree.LeadsTo path place file → file.unreadable ≠ none) ∧
    (∀ bytes, (∃ cause, Utf8.decode bytes = .error cause) ↔ ¬ Utf8.WellFormed bytes) ∧
    (∀ bytes cause, Utf8.decode bytes = .error cause → Utf8.LongestFront bytes cause.index) ∧
    (∀ fault, ended.1 = .error fault → Unchanged tree ended.2 ∨
      ∃ cause, fault = .write path cause ∧ disturbance.BreaksOff strategy cause) ∧
    (∀ fault, ended.1 = .error fault → (∀ cause, fault ≠ .write path cause) → ended.2 = tree) ∧
    (∀ fault, (updateFile target strategy tree path).1 = .error fault →
      (updateFile target strategy tree path).2 = tree) ∧
    ∀ outcome, ended.1 = .ok outcome → ∃ text,
      let lowered := Comment.lowerComments target.marker text
      tree.read path = .ok (Utf8.encode text) ∧
      outcome = { path := path, lines := lowered.lines, changedLines := lowered.changedLines } ∧
      ended.2.read path = .ok (Utf8.encode lowered.text) ∧
      (outcome.changedLines = 0 ↔ ended.2.read path = tree.read path) := by
  intro ended
  refine ⟨updateFileUnder_undisturbed target strategy tree path,
    fun fault => updateFileUnder_eq_error_iff disturbance target strategy, ?_,
    fun bytes => Utf8.exists_fault_iff, fun bytes cause => Utf8.longestFront_of_decode,
    fun fault => unchanged_of_updateFileUnder, fun fault => updateFileUnder_eq_of_not_write,
    fun fault => updateFile_eq_of_error, fun outcome succeeds => ?_⟩
  · constructor
    · rintro ⟨cause, unread⟩ place file leads readable
      rw [leads.read_of_readable readable] at unread
      exact absurd unread (by simp)
    · intro unreadable
      cases read : tree.read path with
      | error cause => exact ⟨cause, rfl⟩
      | ok bytes =>
        obtain ⟨place, file, leads, readable, _⟩ := Tree.read_eq_ok_iff.mp read
        exact absurd readable (unreadable place file leads)
  · obtain ⟨text, read, stored, rfl⟩ :=
      (updateFileUnder_eq_ok_iff disturbance target strategy).mp succeeds
    have whole := read_of_updateFileUnder read stored
    refine ⟨text, read, rfl, whole, ?_⟩
    rw [whole, read, Except.ok.injEq]
    exact target.changedLines_outcome path text

/-- Through a link to a file with two names: a renaming that is refused leaves all as it was, and
without it the comment is in lower case. Bytes that are no text are refused behind the text. -/
theorem updateFileUnder_ends_sharedTree :
    let path := Bytes.ofString "c.lua"
    let disturbance : Disturbance :=
      { step := fun step => if step = .rename then some (.system .inputOutput) else none }
    let refused := updateFileUnder disturbance .lua .atomic Tree.sharedTree path
    let succeeded := updateFileUnder {} .lua .atomic Tree.sharedTree path
    refused.1 = .error (.write path (.system .inputOutput)) ∧
      Unchanged Tree.sharedTree refused.2 ∧
      succeeded.1 = .ok ⟨path, 1, 1⟩ ∧ succeeded.2.read path = .ok (Bytes.ofString "-- old") ∧
      Utf8.LongestFront [0x2D, 0xED, 0xA0, 0x80] 1 := by
  intro path disturbance refused succeeded
  have read : Tree.sharedTree.read path = .ok (Utf8.encode "-- Old".toList) := rfl
  have lowered : (Comment.lowerComments Target.lua.marker "-- Old".toList) =
      ⟨"-- old".toList, 1, 1⟩ := by decide +kernel
  obtain ⟨_, faults, _, _, fronts, unchanged, _⟩ :=
    updateFileUnder_ends disturbance .lua .atomic Tree.sharedTree path
  have stopped : refused.1 = .error (.write path (.system .inputOutput)) := by
    refine (faults _).mpr (.inr (.inr ⟨_, _, read, ?_, rfl⟩))
    rw [lowered]
    rfl
  have quiet : Unchanged Tree.sharedTree refused.2 := by
    refine (unchanged _ stopped).resolve_right ?_
    rintro ⟨_, _, ⟨inPlace, _, _⟩⟩
    exact absurd inPlace (by decide)
  obtain ⟨_, _, _, _, _, _, _, _, succeeds⟩ :=
    updateFileUnder_ends {} .lua .atomic Tree.sharedTree path
  have counted : succeeded.1 = .ok ⟨path, 1, 1⟩ := by
    rw [updateFileUnder_eq_ok_iff]
    have found : Tree.sharedTree.find path = .ok ([Bytes.ofString "a.lua"], .file 0) := rfl
    refine ⟨_, read, ?_, by rw [Target.outcome, lowered]⟩
    rw [Tree.storeUnder_atomic]
    exact Tree.replaceUnder_of_allowed found rfl fun _ _ => rfl
  obtain ⟨text, same, _, whole, _⟩ := succeeds _ counted
  obtain rfl := text_unique read same
  rw [lowered] at whole
  exact ⟨stopped, quiet, counted, whole, fronts _ ⟨1, some 1⟩ rfl⟩

end LowerComments
