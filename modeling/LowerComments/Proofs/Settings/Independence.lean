import LowerComments.Proofs.Settings.Effect
import Mathlib.Control.Monad.Basic

/-!
# Loading the settings does not depend on the example

Two trees may differ in the example alone: in whether there is one, in what it holds and in
whether it can be written (`DifferInExample`). Loading answers and notes the same in both
(`load_effect`), unless the example has to do with the file of the user in one of two ways.

Both names may stand for one file, since the example is written through a link that leads nowhere
(`NamesApart` excludes this). And the file of the user may be a link that goes by way of the
example. It goes on from a directory or a link of that name and from nothing else, so that a tree
with a directory in place of the example gives other settings than one in which the example is
still to be written (`load_detour`). `PassesBy` excludes this, and it holds when the example is a
file (`DifferInExample.passesBy`).
-/

set_option autoImplicit false

namespace LowerComments.Settings

variable {tree other : Tree} {directory : Path}

/-! ## Trees that differ in the example alone -/

/-- A place of the example: its path leads there, a link at its end followed or not. -/
def IsExampleAt (tree : Tree) (directory : Path) (place : Place) : Prop :=
  ∃ followLast, tree.locate followLast (directory.join exampleName) = .ok place

/-- The trees agree wherever the example is not. What they say about the permission bits of a
directory and about its taking new entries may differ everywhere. -/
structure DifferInExample (tree other : Tree) (directory : Path) : Prop where
  workingDirectory : other.workingDirectory = tree.workingDirectory
  places : ∀ place, ¬ tree.AgreeAt other place →
    IsExampleAt tree directory place ∧ IsExampleAt other directory place

/-- The file of the user is not the example under another name. -/
def NamesApart (tree : Tree) (directory : Path) : Prop :=
  tree.holds (directory.join userName) = true → ∀ place, IsExampleAt tree directory place →
    tree.locate true (directory.join userName) ≠ .ok place

/-- One does not come to the file of the user by way of an entry at which the trees differ. -/
def PassesBy (tree other : Tree) (directory : Path) : Prop :=
  tree.holds (directory.join userName) = true → ∀ spot, ¬ tree.AgreeAt other spot →
    ¬ tree.GoesOnFrom (directory.join userName) spot

theorem DifferInExample.symm (differ : DifferInExample tree other directory) :
    DifferInExample other tree directory where
  workingDirectory := differ.workingDirectory.symm
  places place apart := (differ.places place (mt .symm apart)).symm

theorem IsExampleAt.provideExample {place : Place} (stands : IsExampleAt tree directory place) :
    IsExampleAt (Settings.provideExample tree directory) directory place :=
  stands.imp fun _ located => (grown_provideExample tree directory).locate located

/-- Where trees differ once the example is provided, it stands in the one that has an entry there.
The example may have come to stand there in this tree, or in the other one alone. -/
theorem DifferInExample.isExampleAt (differ : DifferInExample tree other directory) {spot : Place}
    {entry : Entry} (there : (provideExample tree directory).entryAt spot = some entry)
    (apart : ¬ (provideExample tree directory).AgreeAt (provideExample other directory) spot) :
    IsExampleAt (provideExample tree directory) directory spot := by
  rcases agreeAt_provideExample tree directory spot with kept | ⟨-, located⟩
  · by_cases agree : tree.AgreeAt other spot
    · rcases agreeAt_provideExample other directory spot with kept' | ⟨missing, -⟩
      · exact absurd (kept.trans (agree.trans kept'.symm)) apart
      -- The example has come to the other tree alone, and here nothing stands.
      · have gone := kept.symm.none (agree.symm.none missing)
        exact absurd (gone.symm.trans there) (by simp)
    · exact (differ.places spot agree).1.provideExample
  · exact ⟨true, located⟩

/-- The file of the user does not stand where the trees differ once the example is provided. -/
theorem DifferInExample.ne_of_located (differ : DifferInExample tree other directory)
    (apart : NamesApart (provideExample tree directory) directory)
    (held : (provideExample tree directory).holds (directory.join userName) = true)
    {place spot : Place}
    (located : (provideExample tree directory).locate true (directory.join userName) = .ok place)
    (unlike : ¬ (provideExample tree directory).AgreeAt (provideExample other directory) spot) :
    place ≠ spot := by
  rintro rfl
  obtain ⟨reached, entry, located', there⟩ := Tree.holds_iff.mp held
  obtain rfl := Except.ok.inj (located'.symm.trans located)
  exact apart held reached (differ.isExampleAt there unlike) located

/-- **The file of the user reads as the same** in trees that differ in the example alone, unless it
is the example or one comes to it by way of the example. -/
theorem DifferInExample.reading?_eq (differ : DifferInExample tree other directory)
    (apart : NamesApart (provideExample tree directory) directory)
    (apart' : NamesApart (provideExample other directory) directory)
    (passesBy : PassesBy (provideExample tree directory) (provideExample other directory) directory)
    (passesBy' : PassesBy (provideExample other directory) (provideExample tree directory)
      directory) :
    (provideExample other directory).reading? (directory.join userName) =
      (provideExample tree directory).reading? (directory.join userName) := by
  refine Tree.reading?_eq_of_agree ?_
    (fun held place located spot unlike =>
      ⟨differ.ne_of_located apart held located unlike, passesBy held spot unlike⟩)
    (fun held place located spot unlike =>
      ⟨differ.symm.ne_of_located apart' held located unlike, passesBy' held spot unlike⟩)
  rw [(grown_provideExample other directory).workingDirectory,
    (grown_provideExample tree directory).workingDirectory, differ.workingDirectory]

/-! ## One place for the example -/

section OnePlace

variable {place : Place}

/-- Trees differ in the example alone when one comes from the other by a change at its place. -/
theorem DifferInExample.of_place (workingDirectory : other.workingDirectory = tree.workingDirectory)
    (elsewhere : ∀ spot, spot ≠ place → other.entryAt spot = tree.entryAt spot)
    (kept : ∀ spot number, tree.entryAt spot = some (.file number) →
      other.file number = tree.file number)
    (stands : IsExampleAt tree directory place) (stands' : IsExampleAt other directory place) :
    DifferInExample tree other directory := by
  refine ⟨workingDirectory, fun spot apart => ?_⟩
  by_cases here : spot = place
  · subst here
    exact ⟨stands, stands'⟩
  · exact absurd (Tree.AgreeAt.of_entryAt (elsewhere spot here) (kept spot)).symm apart

theorem eq_of_isExampleAt {spot : Place}
    (stands : ∀ followLast, tree.locate followLast (directory.join exampleName) = .ok place)
    (found : IsExampleAt (provideExample tree directory) directory spot) : spot = place := by
  obtain ⟨followLast, located⟩ := found
  have same := (grown_provideExample tree directory).locate (stands followLast)
  exact Except.ok.inj (located.symm.trans same)

theorem NamesApart.of_locate {place' : Place}
    (stands : ∀ followLast, tree.locate followLast (directory.join exampleName) = .ok place)
    (located : tree.locate true (directory.join userName) = .ok place') (apart : place ≠ place') :
    NamesApart (provideExample tree directory) directory := by
  rintro - spot found located'
  have same := (grown_provideExample tree directory).locate located
  obtain rfl := eq_of_isExampleAt stands found
  exact apart (Except.ok.inj (located'.symm.trans same))

/-- With a file for the example, nothing leads by way of it. -/
theorem DifferInExample.passesBy (differ : DifferInExample tree other directory)
    (stands : ∀ followLast, tree.locate followLast (directory.join exampleName) = .ok place)
    (file : ∃ number, (provideExample tree directory).entryAt place = some (.file number)) :
    PassesBy (provideExample tree directory) (provideExample other directory) directory := by
  intro held spot unlike goesOn
  obtain ⟨number, file⟩ := file
  have noFile {entry : Entry} (there : (provideExample tree directory).entryAt spot = some entry) :
      entry = .file number := by
    obtain rfl := eq_of_isExampleAt stands (differ.isExampleAt there unlike)
    exact Option.some.inj (there.symm.trans file)
  obtain ⟨_, _, located, _⟩ := Tree.holds_iff.mp held
  obtain ⟨_, _, there⟩ | ⟨_, _, there⟩ := goesOn.entry located
  · exact absurd (noFile there) (by simp)
  · exact absurd (noFile there) (by simp)

end OnePlace

/-! ## Loading -/

/-- **Loading answers what the file of the user says and writes at most the example**, and what it
answers and notes depends on nothing else. -/
theorem load_effect (styled quiet : Bool) (tree : Tree) (directory : Path) (notes : Writer)
    (takes : notes.fits (Report.noteLine styled (directory.join userName)) = true) :
    let loaded := load styled quiet tree directory notes
    Effect styled quiet tree directory notes loaded ∧
    (∀ later : Writer, later.fits (Report.noteLine styled (directory.join userName)) = true →
      ∃ noted, loaded.notes = { notes with written := notes.written ++ noted } ∧
        load styled quiet loaded.tree directory later =
          { loaded with notes := { later with written := later.written ++ noted } }) ∧
    ∀ other : Tree,
      let loaded' := load styled quiet other directory notes
      (loaded'.tree.reading? (directory.join userName) =
          loaded.tree.reading? (directory.join userName) →
        loaded'.result = loaded.result ∧ loaded'.notes = loaded.notes) ∧
      (DifferInExample tree other directory →
        NamesApart loaded.tree directory → NamesApart loaded'.tree directory →
        PassesBy loaded.tree loaded'.tree directory →
        PassesBy loaded'.tree loaded.tree directory →
        loaded'.result = loaded.result ∧ loaded'.notes = loaded.notes) := by
  refine ⟨effect_load takes, fun later => load_load takes, fun other => ?_⟩
  simp only [tree_load]
  exact ⟨load_of_reading? takes, fun differ apart apart' passesBy passesBy' =>
    load_of_reading? takes (differ.reading?_eq apart apart' passesBy passesBy')⟩

/-- A directory with a file of the user. -/
def userTree : Tree :=
  (({} : Tree).setEntry [Bytes.ofString "d"] (.directory 0o755 false)).addFile
    [userName, Bytes.ofString "d"] { content := Bytes.ofString "[run]\non_error = \"continue\"\n" }

/-- The same with something under the name of the example that is no document. -/
def occupiedTree : Tree :=
  userTree.addFile [exampleName, Bytes.ofString "d"] { content := Bytes.ofString "[run" }

/-- With the example still to be written and with something else in its place, loading answers what
the file of the user says. -/
theorem load_effect_userTree :
    let directory := Bytes.ofString "d"
    let loaded := load false false userTree directory {}
    let loaded' := load false false occupiedTree directory {}
    ({} : Writer).fits (Report.noteLine false (Path.join directory userName)) = true ∧
      DifferInExample userTree occupiedTree directory ∧
      NamesApart loaded.tree directory ∧ NamesApart loaded'.tree directory ∧
      PassesBy loaded.tree loaded'.tree directory ∧ PassesBy loaded'.tree loaded.tree directory ∧
      Effect false false userTree directory {} loaded ∧
      loaded.notes.written =
        Bytes.ofString "note: Loaded user config from: d/commentcase.local\n" ∧
      load false false loaded.tree directory {} = loaded ∧
      loaded.result = .ok { onFailure := .proceed } ∧ loaded'.result = loaded.result ∧
      loaded'.notes = loaded.notes := by
  intro directory loaded loaded'
  have takes := Writer.fits_new (Report.noteLine false (Path.join directory userName))
  let place : Place := [exampleName, directory]
  have stands : ∀ followLast,
      userTree.locate followLast (Path.join directory exampleName) = .ok place := by decide +kernel
  have stands' : ∀ followLast,
      occupiedTree.locate followLast (Path.join directory exampleName) = .ok place := by
    decide +kernel
  have free : userTree.entryAt place = none := rfl
  have differ : DifferInExample userTree occupiedTree directory := by
    refine .of_place rfl (fun spot off => ?_) (fun spot number there => ?_)
      ⟨true, stands true⟩ ⟨true, stands' true⟩
    · rw [occupiedTree, Tree.entryAt_addFile free, if_neg off]
    · rw [occupiedTree, Tree.file_addFile, if_neg (Tree.ne_freshNumber there)]
  obtain ⟨effect, again, depends⟩ := load_effect false false userTree directory {} takes
  have apart : NamesApart loaded.tree directory := by
    rw [tree_load]
    exact .of_locate stands rfl (by decide +kernel)
  have apart' : NamesApart loaded'.tree directory := by
    rw [tree_load]
    exact .of_locate stands' rfl (by decide +kernel)
  have passesBy : PassesBy loaded.tree loaded'.tree directory := by
    rw [tree_load, tree_load]
    exact differ.passesBy stands ⟨_, rfl⟩
  have passesBy' : PassesBy loaded'.tree loaded.tree directory := by
    rw [tree_load, tree_load]
    exact differ.symm.passesBy stands' ⟨_, rfl⟩
  obtain ⟨result, notes⟩ := (depends occupiedTree).2 differ apart apart' passesBy passesBy'
  obtain ⟨noted, written, same⟩ := again {} takes
  have answers : loaded.result = .ok { onFailure := .proceed } := by decide +kernel
  exact ⟨takes, differ, apart, apart', passesBy, passesBy', effect, by decide +kernel,
    same.trans (by rw [← written]), answers, result, notes⟩

/-- The file of the user is a link that goes by way of the example to another file. -/
def detourTree : Tree :=
  ((({} : Tree).setEntry [Bytes.ofString "d"] (.directory 0o755 false)).addFile
    [Bytes.ofString "other", Bytes.ofString "d"]
    { content := Bytes.ofString "[run]\non_error = \"continue\"\n" }).addLink
      [userName, Bytes.ofString "d"] (Bytes.ofString "commentcase.conf/../other")

/-- The same with a directory for the example. -/
def passableTree : Tree :=
  detourTree.setEntry [exampleName, Bytes.ofString "d"] (.directory 0o755 false)

/-- **A directory in place of the example lets a link pass** that a file does not, and the settings
are others then. -/
theorem load_detour :
    let directory := Bytes.ofString "d"
    let loaded := load false false detourTree directory {}
    let loaded' := load false false passableTree directory {}
    DifferInExample detourTree passableTree directory ∧
      NamesApart detourTree directory ∧ NamesApart passableTree directory ∧
      NamesApart loaded.tree directory ∧ NamesApart loaded'.tree directory ∧
      loaded.result = .ok {} ∧ loaded'.result = .ok { onFailure := .proceed } := by
  intro directory loaded loaded'
  let place : Place := [exampleName, directory]
  have stands : ∀ followLast,
      detourTree.locate followLast (Path.join directory exampleName) = .ok place := by
    decide +kernel
  have stands' : ∀ followLast,
      passableTree.locate followLast (Path.join directory exampleName) = .ok place := by
    decide +kernel
  have differ : DifferInExample detourTree passableTree directory := by
    refine .of_place rfl (fun spot off => ?_) (fun spot number _ => Tree.file_setEntry _ number)
      ⟨true, stands true⟩ ⟨true, stands' true⟩
    rw [passableTree, Tree.entryAt_setEntry (by simp), if_neg off]
  have same : provideExample passableTree directory = passableTree :=
    provideExample_of_holds (by decide +kernel)
  have nowhere : detourTree.holds (Path.join directory userName) = false := by decide +kernel
  have nowhere' : loaded.tree.holds (Path.join directory userName) = false := by decide +kernel
  have apart : NamesApart (provideExample passableTree directory) directory :=
    .of_locate stands' rfl (by decide +kernel)
  refine ⟨differ, by simp [NamesApart, nowhere], ?_, by simp [NamesApart, nowhere'], ?_, ?_, ?_⟩
  · rwa [← same]
  · rwa [tree_load]
  · decide +kernel
  · decide +kernel

end LowerComments.Settings
