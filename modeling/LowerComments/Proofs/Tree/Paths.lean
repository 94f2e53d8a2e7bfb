import LowerComments.Proofs.Tree.Entries

/-!
# Paths lead to the same place in trees of one shape

Following a path looks at the kind of each entry on the way and at the paths of
links, never at a number (`walk_way`, `resolve_way`). Two trees with the same working
directory that agree so far at every place are therefore alike as far as paths go: a
path leads to the same place in both, or is refused in both for the same reason
(`Tree.locate_congr`). Trees of one shape agree in more, and that is the form in which
the fact is mostly used (`SameShape.locate`).

Following a path comes apart into single steps: what a walk does at one name
(`walk_name_cases`), and an induction over the links that are replaced on the way to a
place (`resolve_induction`).

What a path finds is then a matter of the place it leads to. `Tree.LeadsTo` puts the
two together for a path that leads to a file.
-/

set_option autoImplicit false

namespace LowerComments

/-! ## One name of a walk -/

section Names

variable {entryAt : Place → Option Entry} {followLast : Bool} {directory : Place} {name : Name}
  {rest : List Path.Component} {stop : Stop}

theorem walk_directory {mode : Nat} {isSealed : Bool} (short : name.length ≤ maximalName)
    (entry : entryAt (name :: directory) = some (.directory mode isSealed)) :
    walk entryAt followLast directory (.name name :: rest) =
      walk entryAt followLast (name :: directory) rest := by
  rw [walk, if_neg (Nat.not_lt.mpr short), entry]

theorem walk_link {number : Nat} {path : Path} (short : name.length ≤ maximalName)
    (entry : entryAt (name :: directory) = some (.link number path))
    (followed : ¬ (rest = [] ∧ followLast = false)) :
    walk entryAt followLast directory (.name name :: rest) = .ok (.link directory path rest) := by
  rw [walk, if_neg (Nat.not_lt.mpr short), entry]
  exact if_neg followed

/-- A walk ends at its last name, whatever stands there, unless it is a link to be followed. -/
theorem walk_last (short : name.length ≤ maximalName)
    (unlinked : ∀ number path, entryAt (name :: directory) = some (.link number path) →
      followLast = false) :
    walk entryAt followLast directory [.name name] = .ok (.arrived (name :: directory)) := by
  rw [walk, if_neg (Nat.not_lt.mpr short)]
  split
  · rfl
  · rfl
  · rfl
  · next number path link => exact if_pos ⟨rfl, unlinked number path link⟩

/-- **What a walk that comes somewhere does at a name**: it goes on in a directory, stops at a link,
or ends at the name when that is the last one. -/
theorem walk_name_cases
    (walked : walk entryAt followLast directory (.name name :: rest) = .ok stop) :
    name.length ≤ maximalName ∧
      ((∃ mode isSealed, entryAt (name :: directory) = some (.directory mode isSealed) ∧
          walk entryAt followLast (name :: directory) rest = .ok stop) ∨
        (∃ number path, entryAt (name :: directory) = some (.link number path) ∧
          ¬ (rest = [] ∧ followLast = false) ∧ stop = .link directory path rest) ∨
        rest = [] ∧ stop = .arrived (name :: directory) ∧
          (∀ mode isSealed, entryAt (name :: directory) ≠ some (.directory mode isSealed)) ∧
          ∀ number path, entryAt (name :: directory) = some (.link number path) →
            followLast = false) := by
  rw [walk] at walked
  split at walked
  · exact absurd walked (by simp)
  · next short =>
    refine ⟨Nat.not_lt.mp short, ?_⟩
    cases entry : entryAt (name :: directory) with
    | none =>
      simp only [entry] at walked
      split at walked
      · next last => exact .inr (.inr ⟨last, (Except.ok.inj walked).symm, by simp, by simp⟩)
      · exact absurd walked (by simp)
    | some found =>
      cases found with
      | directory mode isSealed =>
        simp only [entry] at walked
        exact .inl ⟨mode, isSealed, rfl, walked⟩
      | file number =>
        simp only [entry] at walked
        split at walked
        · next last => exact .inr (.inr ⟨last, (Except.ok.inj walked).symm, by simp, by simp⟩)
        · exact absurd walked (by simp)
      | link number path =>
        simp only [entry] at walked
        split at walked
        · next last =>
          exact .inr (.inr ⟨last.1, (Except.ok.inj walked).symm, by simp, fun _ _ _ => last.2⟩)
        · next followed =>
          exact .inr (.inl ⟨number, path, rfl, followed, (Except.ok.inj walked).symm⟩)

end Names

/-! ## One link of a resolution -/

section Links

variable {entryAt : Place → Option Entry} {followLast : Bool} {links : Nat}
  {directory place : Place} {components : List Path.Component}

theorem resolve_arrived
    (walked : walk entryAt followLast directory components = .ok (.arrived place)) :
    resolve entryAt followLast links directory components = .ok place := by
  unfold resolve
  rw [walked]

theorem resolve_link {holder : Place} {path : Path} {rest : List Path.Component}
    (walked : walk entryAt followLast directory components = .ok (.link holder path rest)) :
    resolve entryAt followLast (links + 1) directory components =
      resolve entryAt followLast links (if path.isAbsolute then [] else holder)
        (path.components ++ rest) := by
  rw [resolve, walked]

/-- **Components that lead to a place are walked to it, or to a link behind which it is.** What
holds in the first case, and in the second if it holds behind the link, holds of all of them. -/
theorem resolve_induction {motive : Nat → Place → List Path.Component → Prop}
    (arrived : ∀ links directory components,
      walk entryAt followLast directory components = .ok (.arrived place) →
      motive links directory components)
    (link : ∀ links directory components holder path rest,
      walk entryAt followLast directory components = .ok (.link holder path rest) →
      motive links (if path.isAbsolute then [] else holder) (path.components ++ rest) →
      motive (links + 1) directory components)
    (resolved : resolve entryAt followLast links directory components = .ok place) :
    motive links directory components := by
  induction links generalizing directory components with
  | zero =>
    unfold resolve at resolved
    split at resolved
    · exact absurd resolved (by simp)
    · next reached walked =>
      obtain rfl := Except.ok.inj resolved
      exact arrived 0 directory components walked
    · exact absurd resolved (by simp)
  | succ links ih =>
    unfold resolve at resolved
    split at resolved
    · exact absurd resolved (by simp)
    · next reached walked =>
      obtain rfl := Except.ok.inj resolved
      exact arrived (links + 1) directory components walked
    · next holder path rest walked =>
      exact link links directory components holder path rest walked (ih resolved)

end Links

/-! ## Resolution does not see numbers -/

/-- What path resolution looks at in an entry: its kind, and the path of a link. -/
def Entry.way : Entry → Entry
  | .directory _ _ => .directory 0 false
  | .link _ path => .link 0 path
  | .file _ => .file 0

@[simp] theorem Entry.way_shape (entry : Entry) : entry.shape.way = entry.way := by
  cases entry <;> rfl

theorem walk_way (entryAt : Place → Option Entry) (followLast : Bool) (directory : Place)
    (components : List Path.Component) :
    walk (fun place => (entryAt place).map Entry.way) followLast directory components =
      walk entryAt followLast directory components := by
  induction components generalizing directory with
  | nil => rfl
  | cons component rest ih =>
    cases component with
    | here => exact ih directory
    | up => exact ih directory.tail
    | name name =>
      unfold walk
      by_cases long : maximalName < name.length
      · rw [if_pos long, if_pos long]
      · rw [if_neg long, if_neg long]
        cases entryAt (name :: directory) with
        | none => rfl
        | some entry =>
          cases entry with
          | directory mode isSealed => exact ih (name :: directory)
          | file number => rfl
          | link number path => rfl

theorem resolve_way (entryAt : Place → Option Entry) (followLast : Bool) (links : Nat)
    (directory : Place) (components : List Path.Component) :
    resolve (fun place => (entryAt place).map Entry.way) followLast links directory components =
      resolve entryAt followLast links directory components := by
  induction links generalizing directory components with
  | zero =>
    unfold resolve
    rw [walk_way]
  | succ links ih =>
    unfold resolve
    rw [walk_way]
    cases walk entryAt followLast directory components with
    | error error => rfl
    | ok stop =>
      cases stop with
      | arrived place => rfl
      | link holder path rest => exact ih _ _

/-- **A path leads to the same place in trees that agree in the kinds of their entries and in the
paths of links.** -/
theorem Tree.locate_congr {before after : Tree}
    (workingDirectory : after.workingDirectory = before.workingDirectory)
    (ways : ∀ place, (after.entryAt place).map Entry.way = (before.entryAt place).map Entry.way)
    (followLast : Bool) (path : Path) :
    after.locate followLast path = before.locate followLast path := by
  have start : after.startOf path = before.startOf path := by
    unfold Tree.startOf
    rw [workingDirectory]
  unfold Tree.locate
  rw [← resolve_way after.entryAt, funext ways, resolve_way before.entryAt, start]

/-- Two trees in which one sees the same on the way along any path. -/
structure SameShape (before after : Tree) : Prop where
  workingDirectory : after.workingDirectory = before.workingDirectory
  shapeAt : ∀ place, after.shapeAt place = before.shapeAt place

namespace SameShape

variable {before middle after : Tree}

theorem refl (tree : Tree) : SameShape tree tree where
  workingDirectory := rfl
  shapeAt _ := rfl

theorem symm (same : SameShape before after) : SameShape after before where
  workingDirectory := same.workingDirectory.symm
  shapeAt place := (same.shapeAt place).symm

theorem trans (earlier : SameShape before middle) (later : SameShape middle after) :
    SameShape before after where
  workingDirectory := later.workingDirectory.trans earlier.workingDirectory
  shapeAt place := (later.shapeAt place).trans (earlier.shapeAt place)

/-- **A path leads to the same place in trees of one shape.** -/
theorem locate (same : SameShape before after) (followLast : Bool) (path : Path) :
    after.locate followLast path = before.locate followLast path := by
  refine Tree.locate_congr same.workingDirectory (fun place => ?_) followLast path
  have shapes := congrArg (Option.map Entry.way) (same.shapeAt place)
  simpa [Tree.shapeAt, Function.comp_def] using shapes

/-- A place is taken in both trees or in neither. -/
theorem entryAt_isSome (same : SameShape before after) (place : Place) :
    (after.entryAt place).isSome = (before.entryAt place).isSome := by
  rw [Bool.eq_iff_iff, Tree.entryAt_isSome_iff, Tree.entryAt_isSome_iff, same.shapeAt]

/-- A place names a file in both trees or in neither. -/
theorem file?_isSome (same : SameShape before after) (place : Place) :
    (after.file? place).isSome = (before.file? place).isSome := by
  rw [Bool.eq_iff_iff, Tree.file?_isSome_iff, Tree.file?_isSome_iff, same.shapeAt]

/-- A directory takes new entries in both trees or in neither. -/
theorem isSealed (same : SameShape before after) (place : Place) :
    after.isSealed place = before.isSealed place := by
  rw [Bool.eq_iff_iff, Tree.isSealed_iff, Tree.isSealed_iff, same.shapeAt]

end SameShape

/-! ## Paths to files -/

namespace Tree

/-- A path finds the entry at the place that it leads to. -/
theorem find_eq_ok_iff {tree : Tree} {path : Path} {place : Place} {entry : Entry} :
    tree.find path = .ok (place, entry) ↔
      tree.locate true path = .ok place ∧ tree.entryAt place = some entry := by
  unfold Tree.find
  constructor
  · intro found
    split at found
    · exact absurd found (by simp)
    · next reached located =>
      split at found
      · exact absurd found (by simp)
      · next there =>
        obtain ⟨rfl, rfl⟩ := Prod.mk.inj (Except.ok.inj found)
        exact ⟨located, there⟩
  · rintro ⟨located, there⟩
    rw [located]
    simp only [there]

/-- A path leads to a place that names this file. -/
structure LeadsTo (tree : Tree) (path : Path) (place : Place) (file : File) : Prop where
  locate : tree.locate true path = .ok place
  file? : tree.file? place = some file

theorem LeadsTo.find {tree : Tree} {path : Path} {place : Place} {file : File}
    (leads : tree.LeadsTo path place file) :
    ∃ number, tree.find path = .ok (place, .file number) ∧
      tree.entryAt place = some (.file number) ∧ tree.file number = file := by
  obtain ⟨number, entry, held⟩ := file?_eq_some_iff.mp leads.file?
  exact ⟨number, find_eq_ok_iff.mpr ⟨leads.locate, entry⟩, entry, held⟩

theorem LeadsTo.read_of_unreadable {tree : Tree} {path : Path} {place : Place} {file : File}
    (leads : tree.LeadsTo path place file) {error : SystemError}
    (refused : file.unreadable = some error) : tree.read path = .error (.system error) := by
  obtain ⟨number, found, _, rfl⟩ := leads.find
  rw [Tree.read, found]
  simp only [refused]

theorem LeadsTo.read_of_readable {tree : Tree} {path : Path} {place : Place} {file : File}
    (leads : tree.LeadsTo path place file) (readable : file.unreadable = none) :
    tree.read path = .ok file.bytes := by
  obtain ⟨number, found, _, rfl⟩ := leads.find
  rw [Tree.read, found]
  simp only [readable]

/-- **A path is read exactly when it leads to a file that can be read**, and it gives the bytes of
that file. -/
theorem read_eq_ok_iff {tree : Tree} {path : Path} {bytes : Bytes} :
    tree.read path = .ok bytes ↔ ∃ place file,
      tree.LeadsTo path place file ∧ file.unreadable = none ∧ bytes = file.bytes := by
  constructor
  · intro read
    unfold Tree.read at read
    split at read
    · exact absurd read (by simp)
    · exact absurd read (by simp)
    · exact absurd read (by simp)
    · next place number found =>
      obtain ⟨located, there⟩ := find_eq_ok_iff.mp found
      split at read
      · exact absurd read (by simp)
      · next readable =>
        exact ⟨place, tree.file number, ⟨located, file?_of_entryAt there⟩, readable,
          (Except.ok.inj read).symm⟩
  · rintro ⟨place, file, leads, readable, rfl⟩
    exact leads.read_of_readable readable

/-- **A path leads to a regular file exactly when it leads to a place that names one.** -/
theorem isRegularFile_iff {tree : Tree} {path : Path} :
    tree.isRegularFile path = true ↔
      ∃ place file, tree.LeadsTo path place file ∧ file.isRegular = true := by
  constructor
  · intro regular
    unfold isRegularFile at regular
    split at regular
    · next place number found =>
      obtain ⟨located, there⟩ := find_eq_ok_iff.mp found
      exact ⟨place, tree.file number, ⟨located, file?_of_entryAt there⟩, regular⟩
    · exact absurd regular (by simp)
  · rintro ⟨place, file, leads, regular⟩
    obtain ⟨number, found, _, rfl⟩ := leads.find
    unfold isRegularFile
    rw [found]
    exact regular

end Tree

end LowerComments
