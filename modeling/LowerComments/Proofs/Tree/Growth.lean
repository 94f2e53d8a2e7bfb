import LowerComments.Proofs.Tree.Paths
import LowerComments.Tree.Build

/-!
# Trees that grow

A tree has grown when all that stood in it stands there as it did, and nothing new is a link
(`Grown`). A path that led somewhere leads there still, also where only its last name was
missing: what has come to stand there is the end of the path, or a directory behind which
nothing was asked for (`Grown.locate`). No file has other bytes than before
(`Grown.file?`).

Two operations let a tree grow. Directories are made along a path, each at a place to which a
front of the path leads (`Tree.paved_makeDirectories`), and a file is written whose path leads
to a place without an entry (`Tree.grown_addFile`).
-/

set_option autoImplicit false

namespace LowerComments

/-- Everything stands where it stood, and nothing new is a link. -/
structure Grown (before after : Tree) : Prop where
  workingDirectory : after.workingDirectory = before.workingDirectory
  entryAt : ∀ place entry, before.entryAt place = some entry → after.entryAt place = some entry
  file : ∀ place number, before.entryAt place = some (.file number) →
    after.file number = before.file number
  noLink : ∀ place, before.entryAt place = none →
    ∀ number path, after.entryAt place ≠ some (.link number path)

namespace Grown

variable {before middle after : Tree}

theorem refl (tree : Tree) : Grown tree tree where
  workingDirectory := rfl
  entryAt _ _ there := there
  file _ _ _ := rfl
  noLink place missing number path := by simp [missing]

theorem trans (earlier : Grown before middle) (later : Grown middle after) :
    Grown before after where
  workingDirectory := later.workingDirectory.trans earlier.workingDirectory
  entryAt place entry there := later.entryAt place entry (earlier.entryAt place entry there)
  file place number there :=
    (later.file place number (earlier.entryAt place _ there)).trans
      (earlier.file place number there)
  noLink place missing number path := by
    cases reached : middle.entryAt place with
    | none => exact later.noLink place reached number path
    | some entry =>
      rw [later.entryAt place entry reached, ← reached]
      exact earlier.noLink place missing number path

/-- A tree has grown when one entry was added that is no link. -/
theorem of_added {place : Place} {entry : Entry}
    (workingDirectory : after.workingDirectory = before.workingDirectory)
    (free : before.entryAt place = none) (noLink : ∀ number path, entry ≠ .link number path)
    (entryAt : ∀ other, after.entryAt other =
      if other = place then some entry else before.entryAt other)
    (file : ∀ other number, before.entryAt other = some (.file number) →
      after.file number = before.file number) : Grown before after where
  workingDirectory := workingDirectory
  entryAt other found there := by
    rw [entryAt, if_neg, there]
    rintro rfl
    exact absurd (free.symm.trans there) (by simp)
  file := file
  noLink other missing number path := by
    rw [entryAt]
    split
    · simp [noLink]
    · simp [missing]

/-- **A file that was there is there with the same bytes.** -/
theorem file? (grown : Grown before after) {place : Place} {file : File}
    (named : before.file? place = some file) : after.file? place = some file := by
  obtain ⟨number, entry, rfl⟩ := Tree.file?_eq_some_iff.mp named
  exact Tree.file?_eq_some_iff.mpr
    ⟨number, grown.entryAt place _ entry, grown.file place number entry⟩

/-- A walk that comes somewhere comes to the same end. -/
theorem walk (grown : Grown before after) {followLast : Bool} {directory : Place}
    {components : List Path.Component} {stop : Stop}
    (walked : walk before.entryAt followLast directory components = .ok stop) :
    walk after.entryAt followLast directory components = .ok stop := by
  induction components generalizing directory with
  | nil => exact walked
  | cons component rest ih =>
    cases component with
    | here => exact ih walked
    | up => exact ih walked
    | name name =>
      obtain ⟨short, ⟨_, _, found, later⟩ | ⟨_, _, link, followed, rfl⟩ |
        ⟨rfl, rfl, _, unlinked⟩⟩ := walk_name_cases walked
      · rw [walk_directory short (grown.entryAt _ _ found)]
        exact ih later
      · exact walk_link short (grown.entryAt _ _ link) followed
      · refine walk_last short fun number path link => ?_
        -- What has come to stand at the end is no link.
        cases there : before.entryAt (name :: directory) with
        | none => exact absurd link (grown.noLink _ there number path)
        | some entry =>
          obtain rfl := Option.some.inj ((grown.entryAt _ _ there).symm.trans link)
          exact unlinked number path there

theorem resolve (grown : Grown before after) {followLast : Bool} {links : Nat} {directory : Place}
    {components : List Path.Component} {place : Place}
    (resolved : resolve before.entryAt followLast links directory components = .ok place) :
    resolve after.entryAt followLast links directory components = .ok place := by
  refine resolve_induction (motive := fun links directory components =>
    LowerComments.resolve after.entryAt followLast links directory components = .ok place)
    (fun links directory components walked => ?_)
    (fun links directory components holder path rest walked behind => ?_) resolved
  · exact resolve_arrived (grown.walk walked)
  · rw [resolve_link (grown.walk walked)]
    exact behind

theorem startOf (grown : Grown before after) (path : Path) :
    after.startOf path = before.startOf path := by
  unfold Tree.startOf
  rw [grown.workingDirectory]

/-- **A path that leads to a place leads there still.** -/
theorem locate (grown : Grown before after) {followLast : Bool} {path : Path} {place : Place}
    (located : before.locate followLast path = .ok place) :
    after.locate followLast path = .ok place := by
  unfold Tree.locate at located ⊢
  split at located
  · exact absurd located (by simp)
  · next sound =>
    split at located
    · next reached resolved =>
      rw [grown.startOf, grown.resolve resolved]
      exact located
    · exact absurd located (by simp)

end Grown

namespace Tree

variable {tree : Tree} {place : Place}

/-- **A directory where nothing stood.** -/
theorem grown_setEntry (free : tree.entryAt place = none) (mode : Nat) (isSealed : Bool) :
    Grown tree (tree.setEntry place (.directory mode isSealed)) :=
  Grown.of_added rfl free (by simp) (fun _ => entryAt_setEntry (ne_nil_of_free free))
    fun _ _ _ => rfl

/-- **A file where nothing stood.** It has a number of its own, and so no other file changes. -/
theorem grown_addFile (free : tree.entryAt place = none) (file : File) :
    Grown tree (tree.addFile place file) := by
  refine Grown.of_added rfl free (by simp) (fun _ => entryAt_addFile free file)
    fun other number there => ?_
  rw [file_addFile, if_neg (ne_freshNumber there)]

theorem file?_addFile (free : tree.entryAt place = none) (file : File) :
    (tree.addFile place file).file? place = some file := by
  have here : (tree.addFile place file).entryAt place = some (.file tree.freshNumber) := by
    rw [entryAt_addFile free, if_pos rfl]
  rw [file?_of_entryAt here, file_addFile, if_pos rfl]

/-! ## Directories along a path -/

/-- The components lead to the place, or some of them in front of the others do. -/
def Passes (tree : Tree) (start : Place) (components : List Path.Component)
    (place : Place) : Prop :=
  ∃ front, front <+: components ∧ resolve tree.entryAt true linkLimit start front = .ok place

/-- A tree in which directories were made along components. -/
structure Paved (before : Tree) (start : Place) (components : List Path.Component)
    (after : Tree) : Prop where
  grown : Grown before after
  added : ∀ place, before.entryAt place = none → (after.entryAt place).isSome →
    after.entryAt place = some (.directory newDirectoryMode false) ∧
      after.Passes start components place

theorem Paved.refl (tree : Tree) (start : Place) (components : List Path.Component) :
    Paved tree start components tree where
  grown := Grown.refl tree
  added place missing there := by simp [missing] at there

/-- **Directories are made where fronts of the components lead.** The induction is on the
components to come; those that were passed lead to a directory. -/
theorem paved_makeDirectoriesFrom (start : Place) (tree : Tree)
    (passed rest : List Path.Component) :
    Paved tree start (passed ++ rest) (makeDirectoriesFrom start tree passed rest).2 := by
  induction rest generalizing tree passed with
  | nil => exact Paved.refl tree start _
  | cons component rest ih =>
    have along : passed ++ component :: rest = passed ++ [component] ++ rest := by simp
    unfold makeDirectoriesFrom
    dsimp only
    split
    · exact Paved.refl tree start _
    · next place resolved =>
      split
      · rw [along]
        exact ih tree (passed ++ [component])
      · exact Paved.refl tree start _
      · next free =>
        split
        · exact Paved.refl tree start _
        · split
          · split
            · exact Paved.refl tree start _
            · have begun := grown_setEntry free newDirectoryMode false
              have later := ih (tree.setEntry place (.directory newDirectoryMode false))
                (passed ++ [component])
              rw [along]
              refine ⟨begun.trans later.grown, fun other missing there => ?_⟩
              by_cases here : other = place
              · subst here
                have made := later.grown.entryAt other _
                  ((entryAt_setEntry (ne_nil_of_free free)).trans (if_pos rfl))
                exact ⟨made, _, List.prefix_append _ rest,
                  later.grown.resolve (begun.resolve resolved)⟩
              · refine later.added other ?_ there
                rw [entryAt_setEntry (ne_nil_of_free free), if_neg here, missing]
          · exact Paved.refl tree start _

/-- **Directories are made along the path alone**, whether or not all of them can be made. -/
theorem paved_makeDirectories (tree : Tree) (path : Path) :
    Paved tree (tree.startOf path) path.components (tree.makeDirectories path).2 := by
  unfold makeDirectories
  split
  · exact Paved.refl tree _ _
  · exact paved_makeDirectoriesFrom (tree.startOf path) tree [] path.components

end Tree

end LowerComments
