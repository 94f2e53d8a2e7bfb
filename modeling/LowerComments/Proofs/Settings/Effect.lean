import LowerComments.Proofs.Settings.Preparation
import LowerComments.Proofs.Tree.Agreement

/-!
# What loading the settings does

Loading the settings writes the example when its path leads to nothing, and nothing else
(`Effect`). That the example cannot be written is no fault, and once it is provided it is not
provided again (`provideExample_provideExample`).

The answer is what the file of the user says: the defaults when there is none, a fault when it
cannot be read, when it is not a text and when it is not a document of settings, and settings
otherwise (`Answers`). This is a matter of what the file reads as, and so is the note
(`load_of_reading?`).
-/

set_option autoImplicit false

namespace LowerComments.Settings

variable {tree other : Tree} {directory : Path}

/-! ## What the file of the user says -/

/-- What the settings are when the file of the user reads like this. -/
inductive Answers : Option (Except IoFault Bytes) → Except LowerComments.Fault Settings → Prop where
  /-- Without a file the defaults hold. -/
  | absent : Answers none (.ok {})
  | unread (cause : IoFault) : Answers (some (.error cause)) (.error (.io cause))
  | noText (bytes : Bytes) (malformed : ¬ Utf8.WellFormed bytes) :
    Answers (some (.ok bytes)) (.error (.io .notText))
  /-- A text gives settings, or it is at fault as a document of settings. -/
  | text (text : List Char) :
    Answers (some (.ok (Utf8.encode text))) ((ofText text).mapError .settings)

/-- A file reads like something that says what the settings are. -/
theorem answers_said (tree : Tree) (directory : Path) :
    Answers (tree.reading? (directory.join userName)) (said tree directory) := by
  unfold Tree.reading? said
  split
  · unfold readFile
    cases tree.read (directory.join userName) with
    | error cause => exact .unread cause
    | ok bytes =>
      cases decoded : Utf8.decode bytes with
      | error cause =>
        simp only [decoded]
        exact .noText bytes (Utf8.exists_fault_iff.mp ⟨cause, decoded⟩)
      | ok text =>
        obtain rfl := Utf8.decode_eq_ok_iff.mp decoded
        have answers := Answers.text text
        cases outcome : ofText text with
        | error cause => simpa [decoded, outcome, Except.mapError] using answers
        | ok settings => simpa [decoded, outcome, Except.mapError] using answers
  · exact .absent

/-- A reading says one thing. -/
theorem Answers.unique {reading : Option (Except IoFault Bytes)}
    {first second : Except LowerComments.Fault Settings} (answers : Answers reading first)
    (answers' : Answers reading second) : first = second := by
  have wellFormed (text : List Char) : Utf8.WellFormed (Utf8.encode text) :=
    Utf8.wellFormed_iff.mpr ⟨text, rfl⟩
  generalize same : reading = reading' at answers'
  cases answers with
  | absent =>
    cases answers' with
    | absent => rfl
    | unread _ | noText _ _ | text _ => exact absurd same (by simp)
  | unread cause =>
    cases answers' with
    | unread cause' =>
      obtain rfl := Except.error.inj (Option.some.inj same)
      rfl
    | absent | noText _ _ | text _ => exact absurd same (by simp)
  | noText bytes malformed =>
    cases answers' with
    | noText _ _ => rfl
    | text text =>
      rw [Except.ok.inj (Option.some.inj same)] at malformed
      exact absurd (wellFormed text) malformed
    | absent | unread _ => exact absurd same (by simp)
  | text text =>
    cases answers' with
    | noText bytes malformed =>
      rw [← Except.ok.inj (Option.some.inj same)] at malformed
      exact absurd (wellFormed text) malformed
    | text text' =>
      rw [Utf8.encode_injective (Except.ok.inj (Option.some.inj same))]
    | absent | unread _ => exact absurd same (by simp)

/-- **The answer is what the file of the user says**, and that is decided by what it reads as. -/
theorem answers_iff {result : Except LowerComments.Fault Settings} :
    Answers (tree.reading? (directory.join userName)) result ↔ said tree directory = result :=
  ⟨fun answers => (answers_said tree directory).unique answers,
    fun same => same ▸ answers_said tree directory⟩

/-! ## The example in the tree -/

theorem provideExample_of_holds (held : tree.holds (directory.join exampleName) = true) :
    provideExample tree directory = tree :=
  if_pos held

theorem grown_provideExample (tree : Tree) (directory : Path) :
    Grown tree (provideExample tree directory) := by
  rcases provideExample_cases tree directory with same | ⟨place, -, free, written⟩
  · rw [same]
    exact Grown.refl tree
  · rw [written]
    exact Tree.grown_addFile free exampleFile

/-- **Providing the example once is enough.** What was written is found under its name, and what
could not be written cannot be written then. -/
theorem provideExample_provideExample (tree : Tree) (directory : Path) :
    provideExample (provideExample tree directory) directory =
      provideExample tree directory := by
  have grown := grown_provideExample tree directory
  rcases provideExample_cases tree directory with same | ⟨place, located, free, written⟩
  · rw [same, same]
  · have there : (provideExample tree directory).entryAt place = some (.file tree.freshNumber) := by
      rw [written, Tree.entryAt_addFile free, if_pos rfl]
    exact provideExample_of_holds (Tree.holds_iff.mpr ⟨place, _, grown.locate located, there⟩)

/-- A tree is as before at each place, or the example has come to stand there. -/
theorem agreeAt_provideExample (tree : Tree) (directory : Path) (spot : Place) :
    (provideExample tree directory).AgreeAt tree spot ∨
      tree.entryAt spot = none ∧
        (provideExample tree directory).locate true (directory.join exampleName) = .ok spot := by
  have grown := grown_provideExample tree directory
  rcases provideExample_cases tree directory with same | ⟨place, located, free, written⟩
  · rw [same]
    exact .inl (.refl tree spot)
  · by_cases here : spot = place
    · subst here
      exact .inr ⟨free, grown.locate located⟩
    · refine .inl (.of_entryAt ?_ (grown.file spot))
      rw [written, Tree.entryAt_addFile free, if_neg here]

/-! ## What loading does -/

/-- There is a file of the user that gives settings, and neither they nor the caller ask for
quiet. -/
def CallsForNote (quiet : Bool) (directory : Path) (loaded : Loaded) : Prop :=
  loaded.tree.holds (directory.join userName) = true ∧ quiet = false ∧
    ∃ settings, loaded.result = .ok settings ∧ settings.quiet = false

/-- The example has come to the tree as a new file, where its path led to nothing. -/
structure ExampleAdded (before : Tree) (directory : Path) (after : Tree) (place : Place) :
    Prop where
  absent : before.holds (directory.join exampleName) = false
  located : before.locate true (directory.join exampleName) = .ok place
  free : before.entryAt place = none
  written : after = before.addFile place exampleFile

/-- What loading does to a tree and to the notes, and what it answers. -/
structure Effect (styled quiet : Bool) (before : Tree) (directory : Path) (notes : Writer)
    (loaded : Loaded) : Prop where
  /-- The example comes to the tree, or nothing does. -/
  added : loaded.tree = before ∨ ∃ place, ExampleAdded before directory loaded.tree place
  /-- That the example cannot be written is no fault. -/
  unwritten : ∀ cause,
    before.write (directory.join exampleName) (Bytes.ofString exampleText) = .error cause →
      loaded.tree = before
  /-- Every file is as it was. -/
  kept : ∀ place file, before.file? place = some file → loaded.tree.file? place = some file
  /-- The answer is what the file of the user says. -/
  answers : ∀ result, loaded.result = result ↔
    Answers (loaded.tree.reading? (directory.join userName)) result
  /-- The note is a line with the path of that file. -/
  noted : CallsForNote quiet directory loaded →
    let path := directory.join userName
    loaded.notes = { notes with
      written := notes.written ++ Bytes.ofString
        ((if styled then "\x1b[32m\x1b[1mnote\x1b[0m" else "note") ++
          ": Loaded user config from: " ++
          (if styled then "\x1b[1m\x1b[4m" ++ path.display ++ "\x1b[0m" else path.display) ++
          "\n") }
  unnoted : ¬ CallsForNote quiet directory loaded → loaded.notes = notes

/-- The note about the file of the user, if it is called for. -/
theorem note_eq (styled quiet : Bool) (tree : Tree) (directory : Path) (notes : Writer) :
    (CallsForNote quiet directory ⟨said tree directory, tree, notes⟩ →
      note styled quiet tree directory = Report.noteLine styled (directory.join userName)) ∧
    (¬ CallsForNote quiet directory ⟨said tree directory, tree, notes⟩ →
      note styled quiet tree directory = []) := by
  constructor
  · rintro ⟨held, unasked, settings, answers, loud⟩
    simp only at held answers
    simp [note, held, unasked, answers, loud]
  · intro uncalled
    rw [note]
    split
    · next settings held answers =>
      split
      · rfl
      · next loud =>
        obtain ⟨unasked, loud⟩ := Bool.or_eq_false_iff.mp (Bool.eq_false_iff.mpr loud)
        exact absurd ⟨held, unasked, settings, answers, loud⟩ uncalled
    · rfl

/-- What the settings are and what is noted depends on what the file of the user reads as. -/
theorem said_note_of_reading? (styled quiet : Bool)
    (same : other.reading? (directory.join userName) = tree.reading? (directory.join userName)) :
    said other directory = said tree directory ∧
      note styled quiet other directory = note styled quiet tree directory := by
  have answers : said other directory = said tree directory :=
    answers_iff.mp (same ▸ answers_said tree directory)
  have held : other.holds (directory.join userName) = tree.holds (directory.join userName) := by
    rw [Tree.holds_eq_isSome, Tree.holds_eq_isSome, same]
  exact ⟨answers, by rw [note, note, answers, held]⟩

section Loading

variable {styled quiet : Bool} {notes : Writer}

/-- The tree that loading leaves depends neither on the notes nor on the file of the user. -/
theorem tree_load :
    (load styled quiet tree directory notes).tree = provideExample tree directory := rfl

theorem effect_load
    (takes : notes.fits (Report.noteLine styled (directory.join userName)) = true) :
    Effect styled quiet tree directory notes (load styled quiet tree directory notes) := by
  obtain ⟨calls, silent⟩ := note_eq styled quiet (provideExample tree directory) directory notes
  rw [load_eq_of_takes styled quiet tree directory takes]
  refine ⟨?_, fun cause refused => ?_,
    fun place file => (grown_provideExample tree directory).file?,
    fun result => answers_iff.symm, fun called => ?_, fun uncalled => ?_⟩
  · rcases provideExample_cases tree directory with same | ⟨place, located, free, written⟩
    · exact .inl same
    · by_cases held : tree.holds (directory.join exampleName) = true
      · exact .inl (provideExample_of_holds held)
      · exact .inr ⟨place, Bool.eq_false_iff.mpr held, located, free, written⟩
  · simp [provideExample, refused]
  · simp only [calls called, Report.noteLine_eq]
  · rw [silent uncalled, List.append_nil]

/-- Loading once more, with these notes or others, answers and notes the same. -/
theorem load_load
    (takes : notes.fits (Report.noteLine styled (directory.join userName)) = true)
    {later : Writer}
    (takes' : later.fits (Report.noteLine styled (directory.join userName)) = true) :
    ∃ noted,
      (load styled quiet tree directory notes).notes =
        { notes with written := notes.written ++ noted } ∧
      load styled quiet (load styled quiet tree directory notes).tree directory later =
        { load styled quiet tree directory notes with
          notes := { later with written := later.written ++ noted } } := by
  refine ⟨note styled quiet (provideExample tree directory) directory, ?_, ?_⟩
  · rw [load_eq_of_takes styled quiet tree directory takes]
  · rw [load_eq_of_takes styled quiet tree directory takes,
      load_eq_of_takes styled quiet _ directory takes', provideExample_provideExample]

/-- Loading depends on what the file of the user reads as. -/
theorem load_of_reading?
    (takes : notes.fits (Report.noteLine styled (directory.join userName)) = true)
    (same : (provideExample other directory).reading? (directory.join userName) =
      (provideExample tree directory).reading? (directory.join userName)) :
    (load styled quiet other directory notes).result =
        (load styled quiet tree directory notes).result ∧
      (load styled quiet other directory notes).notes =
        (load styled quiet tree directory notes).notes := by
  obtain ⟨answers, noted⟩ := said_note_of_reading? styled quiet same
  rw [load_eq_of_takes styled quiet other directory takes,
    load_eq_of_takes styled quiet tree directory takes, answers, noted]
  exact ⟨rfl, rfl⟩

end Loading

end LowerComments.Settings
