import LowerComments.FileUpdate
import LowerComments.Proofs.Tree.Replacement
import LowerComments.Tree.View

/-!
# What updating one file does

The two ways of writing back differ in the places that see the new bytes. In place
these are all the names of the file, and as an atomic replacement it is the one name
alone (`Strategy.Reaches`). At every other place the tree stays as it was, and the
shape of the tree stays everywhere (`Tree.Stored`). A name that was replaced names a
file of its own from then on, and apart from that names share their files as before.

Whether an update fails, and with which fault, can be told before it starts, from the
file that the path leads to and from the place (`Tree.updateFault?`). An update that
fails leaves the tree as it was (`updateFile_of_fault`), and one that does not stores
the text with its comments in lower case (`updateFile_of_no_fault`).
-/

set_option autoImplicit false

namespace LowerComments

/-- The places that see the bytes written back for the file at `target`. -/
def Strategy.Reaches (strategy : Strategy) (tree : Tree) (target place : Place) : Prop :=
  match strategy with
  | .inPlace => tree.sameFile target place
  | .atomic => place = target

/-- The file that a place names once bytes were written back. -/
def Strategy.rewrite (strategy : Strategy) (content : Bytes) (file : File) : File :=
  match strategy with
  | .inPlace => Tree.withContent file content
  | .atomic => { content := content, mode := file.mode }

namespace Tree

/-- The tree after the bytes of the file at one place were written back. -/
structure Stored (strategy : Strategy) (before : Tree) (target : Place) (content : Bytes)
    (after : Tree) : Prop where
  shape : SameShape before after
  entries : strategy = .inPlace → ∀ place, after.entryAt place = before.entryAt place
  reached : ∀ place, strategy.Reaches before target place →
    after.file? place = (before.file? place).map (strategy.rewrite content)
  kept : ∀ place, ¬ strategy.Reaches before target place →
    after.file? place = before.file? place
  sameFile : ∀ left right, after.sameFile left right ↔ before.sameFile left right ∧
    (strategy = .atomic → left = right ∨ left ≠ target ∧ right ≠ target)

variable {tree after : Tree} {path : Path} {place : Place} {file : File} {content : Bytes}

/-! ## Writing back -/

/-- Two places name the same file when one entry stands at both. -/
theorem sameFile_iff {number : Nat} (entry : tree.entryAt place = some (.file number))
    (other : Place) : tree.sameFile place other ↔ tree.entryAt other = some (.file number) := by
  constructor
  · rintro ⟨found, _, _, here, there⟩
    rw [there, ← here, entry]
  · intro there
    exact ⟨.file number, number, rfl, entry, there⟩

/-- What is written back to a file is seen under the name through which it was written. -/
theorem reaches_self (found : tree.file? place = some file) (strategy : Strategy) :
    strategy.Reaches tree place place := by
  obtain ⟨number, entry, _⟩ := file?_eq_some_iff.mp found
  cases strategy with
  | inPlace => exact (sameFile_iff entry place).mpr entry
  | atomic => exact rfl

/-- Writing into a file is seen at all of its names. -/
theorem stored_setFile {number : Nat} (entry : tree.entryAt place = some (.file number)) :
    Stored .inPlace tree place content
      (tree.setFile number (withContent (tree.file number) content)) where
  shape := ⟨rfl, fun other => by rw [shapeAt, shapeAt, entryAt_setFile]⟩
  entries _ other := entryAt_setFile number _
  reached other same := by
    have there := (sameFile_iff entry other).mp same
    rw [file?_of_entryAt there, file?_of_entryAt ((entryAt_setFile number _).trans there),
      file_setFile, if_pos rfl]
    rfl
  kept other apart := by
    refine file?_congr (entryAt_setFile number _) fun number' there => ?_
    have different : number' ≠ number := by
      rintro rfl
      exact apart ((sameFile_iff entry other).mpr there)
    rw [file_setFile, if_neg different]
  sameFile left right := by simp [Tree.sameFile]

/-- Names share a file after a replacement as they did before, apart from the replaced name. -/
theorem Replaced.sameFile {number : Nat} {held : File}
    (entry : tree.entryAt place = some (.file number)) (replaced : Replaced tree place held after)
    (left right : Place) : after.sameFile left right ↔
      tree.sameFile left right ∧ (left = right ∨ left ≠ place ∧ right ≠ place) := by
  by_cases here : left = place
  · subst here
    by_cases there : right = left
    · subst there
      have fresh := (replaced.entryAt right).trans (if_pos rfl)
      have behind : after.sameFile right right := ⟨_, _, rfl, fresh, fresh⟩
      have before : tree.sameFile right right := ⟨_, _, rfl, entry, entry⟩
      simp [behind, before]
    · rw [sameFile_comm, replaced.sameFile_of_ne there]
      simp [Ne.symm there]
  · rw [replaced.sameFile_of_ne here, and_comm]
    refine and_congr_right fun _ => ⟨fun apart => .inr ⟨here, apart⟩, ?_⟩
    rintro (rfl | ⟨_, apart⟩)
    · exact here
    · exact apart

/-- A replaced file is seen under its one name. -/
theorem Replaced.stored {number : Nat} (entry : tree.entryAt place = some (.file number))
    (replaced : Replaced tree place { content := content, mode := (tree.file number).mode } after) :
    Stored .atomic tree place content after where
  shape := ⟨replaced.workingDirectory, fun other => by
    rw [shapeAt, shapeAt, replaced.entryAt]
    split
    · next here => rw [here, entry]; rfl
    · rfl⟩
  entries inPlace := by exact absurd inPlace (by simp)
  reached other here := by
    obtain rfl : other = place := here
    have there := (replaced.entryAt other).trans (if_pos rfl)
    rw [file?_of_entryAt there, file?_of_entryAt entry, replaced.file, if_pos rfl]
    rfl
  kept other apart := by
    refine file?_congr ((replaced.entryAt other).trans (if_neg apart)) fun number' there => ?_
    rw [replaced.file, if_neg (ne_freshNumber there)]
  sameFile left right := by simp [replaced.sameFile entry]

/-- Why bytes cannot be written back to the file at a place. -/
def storeFault? (tree : Tree) (strategy : Strategy) (place : Place) (file : File) :
    Option IoFault :=
  match strategy with
  | .inPlace => file.unwritable.map .system
  | .atomic => tree.replaceFault? place

/-- Bytes that cannot be written back leave the tree as it was. -/
theorem store_of_fault (leads : tree.LeadsTo path place file) {strategy : Strategy}
    {cause : IoFault} (refused : tree.storeFault? strategy place file = some cause)
    (content : Bytes) : tree.store strategy path content = (.error cause, tree) := by
  cases strategy with
  | inPlace =>
    obtain ⟨number, _, entry, rfl⟩ := leads.find
    obtain ⟨error, unwritable, rfl⟩ := Option.map_eq_some_iff.mp refused
    rw [store, write, leads.locate]
    simp only [entry, unwritable]
  | atomic => exact replace_of_fault leads refused content

/-- Bytes that can be written back are stored. -/
theorem store_of_no_fault (leads : tree.LeadsTo path place file) {strategy : Strategy}
    (free : tree.storeFault? strategy place file = none) (content : Bytes) :
    ∃ after, tree.store strategy path content = (.ok (), after) ∧
      Stored strategy tree place content after := by
  obtain ⟨number, _, entry, rfl⟩ := leads.find
  cases strategy with
  | inPlace =>
    have writable := Option.map_eq_none_iff.mp free
    refine ⟨_, ?_, stored_setFile entry⟩
    rw [store, write, leads.locate]
    simp only [entry, writable]
  | atomic =>
    obtain ⟨after, replacement, replaced⟩ := replace_of_no_fault leads free content
    exact ⟨after, replacement, replaced.stored entry⟩

/-! ## Updating -/

/-- Why the file to which a path leads cannot be updated. -/
def updateFault? (tree : Tree) (strategy : Strategy) (path : Path) (place : Place) (file : File) :
    Option Fault :=
  match file.unreadable with
  | some error => some (.read path (.system error))
  | none =>
    match Utf8.decode file.bytes with
    | .error cause => some (.decode path cause)
    | .ok _ => (tree.storeFault? strategy place file).map (.write path)

/-- A file can be updated when it can be read as a text and written back. -/
theorem updateFault?_eq_none_iff {strategy : Strategy} :
    tree.updateFault? strategy path place file = none ↔ file.unreadable = none ∧
      (∃ text, Utf8.decode file.bytes = .ok text) ∧
      tree.storeFault? strategy place file = none := by
  rw [updateFault?]
  cases file.unreadable with
  | some error => simp
  | none =>
    cases Utf8.decode file.bytes with
    | error cause => simp
    | ok text => simp

end Tree

variable {tree : Tree} {path : Path} {place : Place} {file : File} {strategy : Strategy}

/-- The outcome of an update names the path that was to be updated. -/
theorem path_of_updateFile {target : Target} {outcome : Outcome} {after : Tree}
    (updated : updateFile target strategy tree path = (.ok outcome, after)) :
    outcome.path = path := by
  rw [updateFile] at updated
  split at updated
  · exact absurd (congrArg Prod.fst updated) (by simp)
  · split at updated
    · exact absurd (congrArg Prod.fst updated) (by simp)
    · simp only at updated
      split at updated
      · exact absurd (congrArg Prod.fst updated) (by simp)
      · rw [← Except.ok.inj (congrArg Prod.fst updated)]

/-- **An update that fails leaves the tree as it was.** -/
theorem updateFile_of_fault (leads : tree.LeadsTo path place file) {fault : Fault}
    (refused : tree.updateFault? strategy path place file = some fault) (target : Target) :
    updateFile target strategy tree path = (.error fault, tree) := by
  rw [Tree.updateFault?] at refused
  cases readable : file.unreadable with
  | some error =>
    simp only [readable] at refused
    rw [updateFile, leads.read_of_unreadable readable, ← Option.some.inj refused]
  | none =>
    simp only [readable] at refused
    rw [updateFile, leads.read_of_readable readable]
    cases decoded : Utf8.decode file.bytes with
    | error cause =>
      simp only [decoded] at refused ⊢
      rw [Option.some.inj refused]
    | ok text =>
      simp only [decoded] at refused ⊢
      obtain ⟨cause, stopped, rfl⟩ := Option.map_eq_some_iff.mp refused
      rw [Tree.store_of_fault leads stopped]

/-- **An update that does not fail stores the text with its comments in lower case.** -/
theorem updateFile_of_no_fault (leads : tree.LeadsTo path place file)
    (free : tree.updateFault? strategy path place file = none) (target : Target) :
    ∃ text outcome after, file.unreadable = none ∧ Utf8.decode file.bytes = .ok text ∧
      updateFile target strategy tree path = (.ok outcome, after) ∧ outcome.path = path ∧
      tree.Stored strategy place
        (Utf8.encode (Comment.lowerComments target.marker text).text) after := by
  rw [Tree.updateFault?] at free
  cases readable : file.unreadable with
  | some error =>
    simp only [readable] at free
    exact absurd free (by simp)
  | none =>
    simp only [readable] at free
    cases decoded : Utf8.decode file.bytes with
    | error cause =>
      simp only [decoded] at free
      exact absurd free (by simp)
    | ok text =>
      simp only [decoded] at free
      let lowered := Comment.lowerComments target.marker text
      obtain ⟨after, stored, holds⟩ := Tree.store_of_no_fault leads
        (Option.map_eq_none_iff.mp free) (Utf8.encode lowered.text)
      refine ⟨text, ⟨path, lowered.lines, lowered.changedLines⟩, after, rfl, rfl, ?_, rfl, holds⟩
      rw [updateFile, leads.read_of_readable readable]
      simp only [decoded, lowered, stored]

/-- **The outcome of an update counts the lines of the text that was read.** -/
theorem outcome_of_updateFile (leads : tree.LeadsTo path place file)
    (readable : file.unreadable = none) {text : List Char}
    (decoded : Utf8.decode file.bytes = .ok text) {target : Target} {outcome : Outcome}
    (succeeds : (updateFile target strategy tree path).1 = .ok outcome) :
    outcome = ⟨path, (Comment.lowerComments target.marker text).lines,
      (Comment.lowerComments target.marker text).changedLines⟩ := by
  rw [updateFile, leads.read_of_readable readable] at succeeds
  simp only [decoded] at succeeds
  split at succeeds
  · exact absurd succeeds (by simp)
  · exact (Except.ok.inj succeeds).symm

end LowerComments
