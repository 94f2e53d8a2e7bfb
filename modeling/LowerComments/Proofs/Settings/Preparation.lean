import LowerComments.Proofs.Settings.Loading
import LowerComments.Proofs.Tree.Growth
import LowerComments.Proofs.Utf8.WellFormed

/-!
# What loading the settings leaves behind

Loading prepares the directory for the settings. Directories are made along the path to it, and
the example is written in it, unless there is something under that name already. The name of
the example may be a link that leads nowhere, and then the example stands where the link
points to. Nothing else comes to the tree and nothing that was there changes (`Furnished`).

The example is never written over a file: a path that holds nothing leads nowhere, or to a
place without an entry (`provideExample_cases`).

Behind the preparation, loading fails when the file of the user is there and cannot be read, is
not a text, or is not a document of settings (`result_loadSettings_eq_error_iff`).
-/

set_option autoImplicit false

namespace LowerComments

namespace Settings

/-- The example, as a file of the tree. -/
def exampleFile : File where
  content := Bytes.ofString exampleText
  mode := Tree.newFileMode

/-- **The example is a new file or none**: it is written where its path leads, and only when nothing
stands there. -/
theorem provideExample_cases (tree : Tree) (directory : Path) :
    provideExample tree directory = tree ∨
      ∃ place, tree.locate true (directory.join exampleName) = .ok place ∧
        tree.entryAt place = none ∧
        provideExample tree directory = tree.addFile place exampleFile := by
  unfold provideExample
  dsimp only
  split
  · exact .inl rfl
  · next absent =>
    split
    · next after written =>
      unfold Tree.write at written
      split at written
      · exact absurd written (by simp)
      · next place located =>
        split at written
        · next free =>
          split at written
          · exact absurd written (by simp)
          · exact .inr ⟨place, located, free, (Except.ok.inj written).symm⟩
        · exact absurd written (by simp)
        · exact absurd written (by simp)
        -- A path to a file holds something.
        · next number there =>
          have found := Tree.find_eq_ok_iff.mpr ⟨located, there⟩
          exact absurd (by rw [Tree.holds, found]) absent
    · exact .inl rfl

/-- Why the settings in a file cannot be read: the file cannot, or it is not a text, or it is not a
document of settings. -/
theorem readFile_eq_error_iff {tree : Tree} {path : Path} {fault : LowerComments.Fault} :
    readFile tree path = .error fault ↔
      (∃ cause, tree.read path = .error cause ∧ fault = .io cause) ∨
      (∃ bytes, tree.read path = .ok bytes ∧ ¬ Utf8.WellFormed bytes ∧ fault = .io .notText) ∨
      (∃ text cause, tree.read path = .ok (Utf8.encode text) ∧ ofText text = .error cause ∧
        fault = .settings cause) := by
  unfold readFile
  cases read : tree.read path with
  | error cause => simp [eq_comm]
  | ok bytes =>
    cases decoded : Utf8.decode bytes with
    | error cause =>
      have malformed := Utf8.exists_fault_iff.mp ⟨cause, decoded⟩
      simp [decoded, malformed, Utf8.ne_encode_of_fault decoded, eq_comm]
    | ok text =>
      obtain rfl := Utf8.decode_eq_ok_iff.mp decoded
      have wellFormed : Utf8.WellFormed (Utf8.encode text) :=
        Utf8.wellFormed_iff.mpr ⟨text, rfl⟩
      cases said : ofText text with
      | error cause => simp [decoded, said, wellFormed, Utf8.encode_inj, eq_comm]
      | ok settings => simp [decoded, said, wellFormed, Utf8.encode_inj]

end Settings

/-- A tree that loading the settings in a directory has left behind. -/
structure Furnished (before : Tree) (directory : Path) (after : Tree) : Prop where
  grown : Grown before after
  /-- What is new is a directory on the way, or the example where its path leads. -/
  added : ∀ place, before.entryAt place = none → (after.entryAt place).isSome →
    (after.entryAt place = some (.directory Tree.newDirectoryMode false) ∧
      after.Passes (after.startOf directory) directory.components place) ∨
    (after.file? place = some Settings.exampleFile ∧
      after.locate true (directory.join Settings.exampleName) = .ok place)

/-- Directories along the path are all that is needed. -/
theorem Tree.Paved.furnished {before after : Tree} {directory : Path}
    (paved : Tree.Paved before (before.startOf directory) directory.components after) :
    Furnished before directory after where
  grown := paved.grown
  added place missing there := by
    rw [paved.grown.startOf]
    exact .inl (paved.added place missing there)

/-- **The example comes on top of the directories.** -/
theorem Tree.Paved.furnished_provideExample {before made : Tree} {directory : Path}
    (paved : Tree.Paved before (before.startOf directory) directory.components made) :
    Furnished before directory (Settings.provideExample made directory) := by
  rcases Settings.provideExample_cases made directory with same | ⟨place, located, free, written⟩
  · rw [same]
    exact paved.furnished
  · have more := Tree.grown_addFile free Settings.exampleFile
    rw [written]
    refine ⟨paved.grown.trans more, fun other missing there => ?_⟩
    by_cases here : other = place
    · subst here
      exact .inr ⟨Tree.file?_addFile free Settings.exampleFile, more.locate located⟩
    · rw [Tree.entryAt_addFile free, if_neg here] at there
      obtain ⟨directoryThere, front, behind, resolved⟩ := paved.added other missing there
      refine .inl ⟨more.entryAt other _ directoryThere, front, behind, ?_⟩
      rw [more.startOf, paved.grown.startOf]
      exact more.resolve resolved

namespace Command

variable (environment : Environment) (quiet : Bool) (tree : Tree)

/-- Without a directory for the settings nothing is prepared. -/
theorem tree_loadSettings_of_none (unnamed : environment.settingsDirectory? = none) :
    (loadSettings environment quiet tree).tree = tree := by
  simp only [loadSettings, unnamed]

/-- **Loading furnishes the directory for the settings**, and changes nothing else. -/
theorem furnished_loadSettings {directory : Path}
    (named : environment.settingsDirectory? = some directory) :
    Furnished tree directory (loadSettings environment quiet tree).tree := by
  have paved := Tree.paved_makeDirectories tree directory
  simp only [loadSettings, named]
  rcases made : tree.makeDirectories directory with ⟨_ | _, prepared⟩
  · rw [made] at paved
    exact paved.furnished
  · rw [made] at paved
    simp only [Settings.load_eq]
    exact paved.furnished_provideExample

/-- **Loading fails when the file of the user is there and cannot be used.** -/
theorem result_loadSettings_eq_error_iff {fault : Fault} :
    (loadSettings environment quiet tree).result = .error fault ↔
      ∃ directory, (makeSettingsDirectory environment tree).1 = some directory ∧
        let path := directory.join Settings.userName
        let loaded := (loadSettings environment quiet tree).tree
        loaded.holds path = true ∧
        ((∃ cause, loaded.read path = .error cause ∧ fault = .io cause) ∨
          (∃ bytes, loaded.read path = .ok bytes ∧ ¬ Utf8.WellFormed bytes ∧
            fault = .io .notText) ∨
          (∃ text cause, loaded.read path = .ok (Utf8.encode text) ∧
            Settings.ofText text = .error cause ∧ fault = .settings cause)) := by
  rw [result_loadSettings]
  cases (makeSettingsDirectory environment tree).1 with
  | none => simp
  | some directory =>
    simp only [Option.some.injEq, exists_eq_left', ← Settings.readFile_eq_error_iff]
    rw [Settings.said]
    split
    · next held => simp [held]
    · next absent => simp [absent]

end Command

end LowerComments
