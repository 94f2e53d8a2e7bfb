import LowerComments.Command
import LowerComments.Proofs.Report.Wording
import LowerComments.Proofs.Report.Writer

/-!
# What loading the settings answers

Loading has a result, a tree and a note. The result is what the file of the user says in
the tree that loading leaves (`Settings.said`), and the note is a line that names this file
or nothing at all (`Settings.note`). Whether quiet is asked for decides about the note
alone: result and tree are the same with it and without (`result_loadSettings_other`,
`tree_loadSettings_other`).
-/

set_option autoImplicit false

namespace LowerComments

namespace Settings

/-- What the file of the user says about the settings. The defaults hold when it is not there. -/
def said (tree : Tree) (directory : Path) : Except LowerComments.Fault Settings :=
  if tree.holds (directory.join userName) then readFile tree (directory.join userName)
  else .ok {}

/-- The note about the file of the user, when it was read and nobody asks for quiet. -/
def note (styled quiet : Bool) (tree : Tree) (directory : Path) : Bytes :=
  match tree.holds (directory.join userName), said tree directory with
  | true, .ok settings =>
    if quiet || settings.quiet then [] else Report.noteLine styled (directory.join userName)
  | _, _ => []

theorem note_eq_nil_or (styled quiet : Bool) (tree : Tree) (directory : Path) :
    note styled quiet tree directory = [] ∨
      note styled quiet tree directory = Report.noteLine styled (directory.join userName) := by
  rw [note]
  split
  · split
    · exact .inl rfl
    · exact .inr rfl
  · exact .inl rfl

/-- Nothing is noted when quiet is asked for. -/
@[simp] theorem note_quiet (styled : Bool) (tree : Tree) (directory : Path) :
    note styled true tree directory = [] := by
  rw [note]
  split <;> rfl

/-- **Reading the file of the user answers what it says**, and leaves the note on a writer that
takes it. -/
theorem readUser_eq (styled quiet : Bool) (tree : Tree) (directory : Path) {notes : Writer}
    (takes : notes.fits (Report.noteLine styled (directory.join userName)) = true) :
    readUser styled quiet tree directory notes =
      (said tree directory,
        { notes with written := notes.written ++ note styled quiet tree directory }) := by
  rw [readUser, note, said]
  cases tree.holds (directory.join userName) with
  | false => simp
  | true =>
    cases readFile tree (directory.join userName) with
    | error fault => simp
    | ok settings =>
      cases hushed : quiet || settings.quiet with
      | true => simp [hushed]
      | false => simp [hushed, takes, Writer.put_of_fits takes]

/-- **Loading leaves the tree with the example** and answers what the file of the user says
there. -/
theorem load_eq_of_takes (styled quiet : Bool) (tree : Tree) (directory : Path) {notes : Writer}
    (takes : notes.fits (Report.noteLine styled (directory.join userName)) = true) :
    load styled quiet tree directory notes =
      { result := said (provideExample tree directory) directory
        tree := provideExample tree directory
        notes := { notes with
          written := notes.written ++
            note styled quiet (provideExample tree directory) directory } } := by
  rw [load, readUser_eq styled quiet (provideExample tree directory) directory takes]

/-- Loading with a new writer for the notes. -/
theorem load_eq (styled quiet : Bool) (tree : Tree) (directory : Path) :
    load styled quiet tree directory {} =
      { result := said (provideExample tree directory) directory
        tree := provideExample tree directory
        notes := { written := note styled quiet (provideExample tree directory) directory } } :=
  load_eq_of_takes styled quiet tree directory (Writer.fits_new _)

end Settings

namespace Command

/-- The directory for the settings, if it is there or can be made, and the tree with what was
made of it. -/
def makeSettingsDirectory (environment : Environment) (tree : Tree) : Option Path × Tree :=
  match environment.settingsDirectory? with
  | none => (none, tree)
  | some directory =>
    match tree.makeDirectories directory with
    | (.ok (), prepared) => (some directory, prepared)
    | (.error _, prepared) => (none, prepared)

variable (environment : Environment) (quiet : Bool) (tree : Tree)

/-- Loading begins with the directory. -/
theorem loadSettings_eq :
    loadSettings environment quiet tree =
      match makeSettingsDirectory environment tree with
      | (none, prepared) => { result := .ok {}, tree := prepared, notes := {} }
      | (some directory, prepared) =>
        Settings.load environment.styled quiet prepared directory {} := by
  rw [loadSettings, makeSettingsDirectory]
  cases environment.settingsDirectory? with
  | none => rfl
  | some directory =>
    rcases made : tree.makeDirectories directory with ⟨_ | _, prepared⟩ <;> simp only [made]

/-- **The settings are those in the file of the user**, in the tree that loading leaves. The
defaults hold when there is no directory for the file. -/
theorem result_loadSettings :
    (loadSettings environment quiet tree).result =
      match (makeSettingsDirectory environment tree).1 with
      | none => .ok {}
      | some directory => Settings.said (loadSettings environment quiet tree).tree directory := by
  rw [loadSettings_eq]
  rcases makeSettingsDirectory environment tree with ⟨_ | directory, prepared⟩
  · rfl
  · simp only [Settings.load_eq]

/-- The note names the file of the user. -/
theorem notes_loadSettings :
    (loadSettings environment quiet tree).notes =
      { written :=
          match (makeSettingsDirectory environment tree).1 with
          | none => []
          | some directory => Settings.note environment.styled quiet
              (loadSettings environment quiet tree).tree directory } := by
  rw [loadSettings_eq]
  rcases makeSettingsDirectory environment tree with ⟨_ | directory, prepared⟩
  · rfl
  · simp only [Settings.load_eq]

/-- The writer of the notes takes everything. -/
theorem fits_notes_loadSettings (bytes : Bytes) :
    (loadSettings environment quiet tree).notes.fits bytes = true := by
  rw [notes_loadSettings]
  rfl

/-- The tree is the same whether quiet is asked for or not. -/
theorem tree_loadSettings_other (other : Bool) :
    (loadSettings environment quiet tree).tree = (loadSettings environment other tree).tree := by
  rw [loadSettings_eq, loadSettings_eq]
  rcases makeSettingsDirectory environment tree with ⟨_ | directory, prepared⟩
  · rfl
  · simp only [Settings.load_eq]

/-- So is the result. -/
theorem result_loadSettings_other (other : Bool) :
    (loadSettings environment quiet tree).result =
      (loadSettings environment other tree).result := by
  rw [result_loadSettings, result_loadSettings,
    tree_loadSettings_other environment quiet tree other]

/-! ## The note -/

/-- The directory for the settings is where the environment says. -/
theorem settingsDirectory?_of_makeSettingsDirectory {directory : Path}
    (made : (makeSettingsDirectory environment tree).1 = some directory) :
    environment.settingsDirectory? = some directory := by
  rw [makeSettingsDirectory] at made
  cases named : environment.settingsDirectory? with
  | none => simp [named] at made
  | some other =>
    simp only [named] at made
    split at made
    · exact made
    · exact absurd made (by simp)

/-- What is noted about the settings: nothing, or a line with the path of the file of the user, in
the directory that the environment names. -/
def IsNote (environment : Environment) (written : Bytes) : Prop :=
  written = [] ∨ ∃ directory, environment.settingsDirectory? = some directory ∧
    let path := directory.join Settings.userName
    written = Bytes.ofString
      ((if environment.styled then "\x1b[32m\x1b[1mnote\x1b[0m" else "note") ++
        ": Loaded user config from: " ++
        (if environment.styled then "\x1b[1m\x1b[4m" ++ path.display ++ "\x1b[0m"
          else path.display) ++ "\n")

/-- **Loading notes at most the file of the user.** -/
theorem isNote_loadSettings :
    IsNote environment (loadSettings environment quiet tree).notes.written := by
  rw [notes_loadSettings]
  cases made : (makeSettingsDirectory environment tree).1 with
  | none => exact .inl rfl
  | some directory =>
    refine (Settings.note_eq_nil_or environment.styled quiet _ directory).imp_right fun note => ?_
    exact ⟨directory, settingsDirectory?_of_makeSettingsDirectory environment tree made,
      note.trans (Report.noteLine_eq environment.styled _)⟩

/-- With quiet nothing is noted. -/
theorem notes_loadSettings_quiet : (loadSettings environment true tree).notes.written = [] := by
  rw [notes_loadSettings]
  cases (makeSettingsDirectory environment tree).1 with
  | none => rfl
  | some directory => exact Settings.note_quiet ..

end Command

end LowerComments
