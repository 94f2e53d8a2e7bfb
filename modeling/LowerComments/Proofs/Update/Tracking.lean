import LowerComments.Proofs.Update.Verdict
import LowerComments.Proofs.Utf8.RoundTrip

/-!
# What earlier updates leave unchanged

Updates change the trees that later files are read from. They keep everything that
decides whether a later update fails: the shape of the tree, the kind of each file and
the refusals to open it, and whether its bytes are a text (`Alike`). A tree that stands
to the initial one in this relation tracks it (`Tracks`).

The relation is kept by every update, and it is enough for the verdict: the update of
a file in a tree that tracks the initial one fails exactly when it fails on the initial
one, and with the same fault (`Tracks.updateFault?`).
-/

set_option autoImplicit false

namespace LowerComments

/-! ## Files that are updated alike -/

/-- The files are updated both or neither, and with one fault. Whether a file can be written
into matters only when it is written in place. -/
structure File.Alike (strategy : Strategy) (before after : File) : Prop where
  mode : after.mode = before.mode
  isRegular : after.isRegular = before.isRegular
  unreadable : after.unreadable = before.unreadable
  unwritable : strategy = .inPlace → after.unwritable = before.unwritable
  malformed : ∀ cause,
    Utf8.decode after.bytes = .error cause ↔ Utf8.decode before.bytes = .error cause

namespace File.Alike

variable {strategy : Strategy} {before middle after : File}

theorem refl (strategy : Strategy) (file : File) : Alike strategy file file where
  mode := rfl
  isRegular := rfl
  unreadable := rfl
  unwritable _ := rfl
  malformed _ := Iff.rfl

theorem trans (earlier : Alike strategy before middle) (later : Alike strategy middle after) :
    Alike strategy before after where
  mode := later.mode.trans earlier.mode
  isRegular := later.isRegular.trans earlier.isRegular
  unreadable := later.unreadable.trans earlier.unreadable
  unwritable inPlace := (later.unwritable inPlace).trans (earlier.unwritable inPlace)
  malformed cause := (later.malformed cause).trans (earlier.malformed cause)

end File.Alike

/-- What is written back to a regular file is what it holds then. -/
theorem content_rewrite (strategy : Strategy) {file : File} (regular : file.isRegular = true)
    (content : Bytes) : (strategy.rewrite content file).content = content := by
  cases strategy with
  | inPlace => rw [Strategy.rewrite, Tree.withContent, if_pos regular]
  | atomic => rfl

/-- A file that can be read and written is the same after either way of writing. -/
theorem rewrite_inPlace_eq_atomic {file : File} (regular : file.isRegular = true)
    (readable : file.unreadable = none) (writable : file.unwritable = none) (content : Bytes) :
    Strategy.rewrite .inPlace content file = Strategy.rewrite .atomic content file := by
  rw [Strategy.rewrite, Strategy.rewrite, Tree.withContent, if_pos regular]
  cases file
  simp_all

/-- A regular file with a text is updated like the one with another text in its place. -/
theorem File.alike_rewrite (strategy : Strategy) {file : File} (regular : file.isRegular = true)
    (readable : file.unreadable = none) {text : List Char}
    (decoded : Utf8.decode file.bytes = .ok text) (other : List Char) :
    File.Alike strategy file (strategy.rewrite (Utf8.encode other) file) := by
  have stays : (strategy.rewrite (Utf8.encode other) file).isRegular = true := by
    cases strategy with
    | inPlace => rw [Strategy.rewrite, Tree.withContent, if_pos regular, regular]
    | atomic => rfl
  have malformed (cause : Utf8.Fault) :
      Utf8.decode (strategy.rewrite (Utf8.encode other) file).bytes = .error cause ↔
        Utf8.decode file.bytes = .error cause := by
    rw [File.bytes, if_pos stays, content_rewrite strategy regular, Utf8.decode_encode, decoded]
    simp
  refine ⟨?_, stays.trans regular.symm, ?_, fun inPlace => ?_, malformed⟩
  · cases strategy with
    | inPlace => rw [Strategy.rewrite, Tree.withContent, if_pos regular]
    | atomic => rfl
  · cases strategy with
    | inPlace => rw [Strategy.rewrite, Tree.withContent, if_pos regular]
    | atomic => exact readable.symm
  · subst inPlace
    rw [Strategy.rewrite, Tree.withContent, if_pos regular]

/-! ## Trees that track one another -/

/-- Paths lead to the same places in both trees, and to files that are updated alike. -/
structure Tracks (strategy : Strategy) (start tree : Tree) : Prop where
  shape : SameShape start tree
  entries : strategy = .inPlace → ∀ place, tree.entryAt place = start.entryAt place
  alike : ∀ place before after, start.file? place = some before →
    tree.file? place = some after → File.Alike strategy before after

namespace Tracks

variable {strategy : Strategy} {start tree : Tree} {path : Path} {place : Place}

theorem refl (strategy : Strategy) (tree : Tree) : Tracks strategy tree tree where
  shape := SameShape.refl tree
  entries _ _ := rfl
  alike place before after found again := by
    obtain rfl : before = after := Option.some.inj (found.symm.trans again)
    exact File.Alike.refl strategy before

/-- A place names a file in both trees. -/
theorem file? (tracks : Tracks strategy start tree) {before : File}
    (found : start.file? place = some before) :
    ∃ after, tree.file? place = some after ∧ File.Alike strategy before after := by
  have there := tracks.shape.file?_isSome place
  rw [found] at there
  obtain ⟨after, again⟩ := Option.isSome_iff_exists.mp there
  exact ⟨after, again, tracks.alike place before after found again⟩

theorem leadsTo (tracks : Tracks strategy start tree) {before : File}
    (leads : start.LeadsTo path place before) :
    ∃ after, tree.LeadsTo path place after ∧ File.Alike strategy before after := by
  obtain ⟨after, found, alike⟩ := tracks.file? leads.file?
  exact ⟨after, ⟨(tracks.shape.locate true path).trans leads.locate, found⟩, alike⟩

/-- What is read under a path is what the place holds that the path leads to. -/
theorem read (tracks : Tracks strategy start tree) {before : File}
    (leads : start.LeadsTo path place before) (regular : before.isRegular = true)
    (readable : before.unreadable = none) {content : Bytes}
    (held : tree.contentAt place = some content) : tree.read path = .ok content := by
  obtain ⟨after, again, alike⟩ := tracks.leadsTo leads
  rw [Tree.contentAt, again.file?, Option.map_some] at held
  rw [again.read_of_readable (alike.unreadable.trans readable), File.bytes,
    if_pos (alike.isRegular.trans regular), Option.some.inj held]

/-- The same paths lead to regular files in both trees. -/
theorem isRegularFile (tracks : Tracks strategy start tree) (path : Path) :
    tree.isRegularFile path = start.isRegularFile path := by
  rw [Bool.eq_iff_iff, Tree.isRegularFile_iff, Tree.isRegularFile_iff]
  constructor
  · rintro ⟨place, after, leads, regular⟩
    have there := tracks.shape.file?_isSome place
    rw [leads.file?, Option.isSome_some] at there
    obtain ⟨before, found⟩ := Option.isSome_iff_exists.mp there.symm
    have alike := tracks.alike place before after found leads.file?
    exact ⟨place, before, ⟨(tracks.shape.locate true path).symm.trans leads.locate, found⟩,
      alike.isRegular.symm.trans regular⟩
  · rintro ⟨place, before, leads, regular⟩
    obtain ⟨after, again, alike⟩ := tracks.leadsTo leads
    exact ⟨place, after, again, alike.isRegular.trans regular⟩

/-- Apart from the bytes of files one sees the same in both trees. -/
theorem outlineAt (tracks : Tracks strategy start tree) (place : Place) :
    tree.outlineAt place = start.outlineAt place := by
  have seen : (tree.file? place).map File.outline = (start.file? place).map File.outline := by
    cases found : start.file? place with
    | none =>
      have missing := tracks.shape.file?_isSome place
      rw [found, Option.isSome_none, Option.isSome_eq_false_iff, Option.isNone_iff_eq_none]
        at missing
      rw [missing]
    | some before =>
      obtain ⟨after, again, alike⟩ := tracks.file? found
      rw [again, Option.map_some, Option.map_some, File.outline, File.outline, alike.mode,
        alike.isRegular]
  rw [Tree.outlineAt_eq, Tree.outlineAt_eq, tracks.shape.shapeAt, seen]

/-- The same places see what is written back. -/
theorem reaches_iff (tracks : Tracks strategy start tree) (target place : Place) :
    strategy.Reaches tree target place ↔ strategy.Reaches start target place := by
  cases strategy with
  | inPlace =>
    have same := tracks.entries rfl
    simp only [Strategy.Reaches, Tree.sameFile, same]
  | atomic => exact Iff.rfl

/-- **Whether and how an update fails is the same in both trees.** -/
theorem updateFault? (tracks : Tracks strategy start tree) {before after : File}
    (alike : File.Alike strategy before after) (path : Path) (place : Place) :
    tree.updateFault? strategy path place after =
      start.updateFault? strategy path place before := by
  have store : tree.storeFault? strategy place after =
      start.storeFault? strategy place before := by
    cases strategy with
    | inPlace => rw [Tree.storeFault?, Tree.storeFault?, alike.unwritable rfl]
    | atomic =>
      rw [Tree.storeFault?, Tree.storeFault?, Tree.replaceFault?, Tree.replaceFault?,
        tracks.shape.isSealed, tracks.shape.freshName]
  rw [Tree.updateFault?, Tree.updateFault?, alike.unreadable, store]
  cases before.unreadable with
  | some error => rfl
  | none =>
    cases decoded : Utf8.decode before.bytes with
    | error cause => rw [(alike.malformed cause).mpr decoded]
    | ok text =>
      cases again : Utf8.decode after.bytes with
      | error cause =>
        rw [(alike.malformed cause).mp again] at decoded
        exact absurd decoded (by simp)
      | ok other => rfl

end Tracks

/-- The places that see what is written back name the file that was updated. -/
theorem Strategy.Reaches.file? {strategy : Strategy} {tree : Tree} {target place : Place}
    (reaches : strategy.Reaches tree target place) : tree.file? place = tree.file? target := by
  cases strategy with
  | inPlace =>
    obtain ⟨entry, _, _, here, there⟩ := reaches
    rw [Tree.file?, Tree.file?, here, there]
  | atomic => rw [show place = target from reaches]

/-- **An update keeps everything that decides about later updates.** -/
theorem Tracks.stored {strategy : Strategy} {start tree after : Tree} {place : Place}
    {file : File} {text lowered : List Char} (tracks : Tracks strategy start tree)
    (found : tree.file? place = some file) (regular : file.isRegular = true)
    (readable : file.unreadable = none) (decoded : Utf8.decode file.bytes = .ok text)
    (stored : tree.Stored strategy place (Utf8.encode lowered) after) :
    Tracks strategy start after := by
  refine ⟨tracks.shape.trans stored.shape, fun inPlace other => ?_, fun other => ?_⟩
  · rw [stored.entries inPlace, tracks.entries inPlace]
  · intro before last initial final
    obtain ⟨middle, between, alike⟩ := tracks.file? initial
    by_cases reaches : strategy.Reaches tree place other
    · obtain rfl : file = middle := by
        rw [reaches.file?, found] at between
        exact Option.some.inj between
      rw [stored.reached other reaches, between] at final
      obtain rfl := Option.some.inj final
      exact alike.trans (File.alike_rewrite strategy regular readable decoded lowered)
    · rw [stored.kept other reaches, between] at final
      obtain rfl := Option.some.inj final
      exact alike

/-! ## Updates in a tree that tracks the initial one -/

section Updates

variable {strategy : Strategy} {start tree : Tree} {path : Path} {target : Target}

/-- The fault of an update names the path that was to be updated. -/
theorem path?_of_updateFault? {place : Place} {file : File} {fault : Fault}
    (refused : tree.updateFault? strategy path place file = some fault) :
    fault.path? = some path := by
  rw [Tree.updateFault?] at refused
  split at refused
  · rw [← Option.some.inj refused, Fault.path?]
  · split at refused
    · rw [← Option.some.inj refused, Fault.path?]
    · obtain ⟨cause, _, rfl⟩ := Option.map_eq_some_iff.mp refused
      rfl

/-- The verdict on a path to a regular file can be read off the outcome. -/
theorem updateFault?_of_updateFile {place : Place} {file : File}
    (leads : tree.LeadsTo path place file) {fault : Fault}
    (fails : (updateFile target strategy tree path).1 = .error fault) :
    tree.updateFault? strategy path place file = some fault := by
  cases verdict : tree.updateFault? strategy path place file with
  | none =>
    obtain ⟨_, _, _, _, _, succeeds, _⟩ := updateFile_of_no_fault leads verdict target
    rw [succeeds] at fails
    exact absurd fails (by simp)
  | some other =>
    rw [updateFile_of_fault leads verdict target] at fails
    rw [Except.error.inj fails]

theorem no_updateFault?_of_updateFile {place : Place} {file : File}
    (leads : tree.LeadsTo path place file) {outcome : Outcome}
    (succeeds : (updateFile target strategy tree path).1 = .ok outcome) :
    tree.updateFault? strategy path place file = none := by
  cases verdict : tree.updateFault? strategy path place file with
  | none => rfl
  | some other =>
    rw [updateFile_of_fault leads verdict target] at succeeds
    exact absurd succeeds (by simp)

/-- **A file that cannot be updated alone cannot be updated later, for the same reason.** -/
theorem Tracks.updateFile_fails (tracks : Tracks strategy start tree)
    (regular : start.isRegularFile path = true) {fault : Fault}
    (alone : (updateFile target strategy start path).1 = .error fault) :
    updateFile target strategy tree path = (.error fault, tree) ∧ fault.path? = some path := by
  obtain ⟨place, before, leads, _⟩ := Tree.isRegularFile_iff.mp regular
  obtain ⟨after, again, alike⟩ := tracks.leadsTo leads
  have verdict := updateFault?_of_updateFile leads alone
  have later := (tracks.updateFault? alike path place).trans verdict
  exact ⟨updateFile_of_fault again later target, path?_of_updateFault? verdict⟩

/-- **A file that can be updated alone can be updated later, and the tree goes on tracking.** -/
theorem Tracks.updateFile_succeeds (tracks : Tracks strategy start tree)
    (regular : start.isRegularFile path = true) {outcome : Outcome}
    (alone : (updateFile target strategy start path).1 = .ok outcome) :
    ∃ later after, updateFile target strategy tree path = (.ok later, after) ∧
      later.path = path ∧ Tracks strategy start after ∧
      ∃ place file text, tree.LeadsTo path place file ∧ file.isRegular = true ∧
        Utf8.decode file.bytes = .ok text ∧
        tree.Stored strategy place
          (Utf8.encode (Comment.lowerComments target.marker text).text) after := by
  obtain ⟨place, before, leads, plain⟩ := Tree.isRegularFile_iff.mp regular
  obtain ⟨file, again, alike⟩ := tracks.leadsTo leads
  have verdict := (tracks.updateFault? alike path place).trans
    (no_updateFault?_of_updateFile leads alone)
  obtain ⟨text, later, after, readable, decoded, updated, named, stored⟩ :=
    updateFile_of_no_fault again verdict target
  have stays := alike.isRegular.trans plain
  have tracked := tracks.stored again.file? stays readable decoded stored
  exact ⟨later, after, updated, named, tracked, place, file, text, again, stays, decoded, stored⟩

/-- **Whatever becomes of a file, the tree goes on tracking the initial one.** -/
theorem Tracks.updateFile (tracks : Tracks strategy start tree)
    (regular : start.isRegularFile path = true) (target : Target) :
    Tracks strategy start (updateFile target strategy tree path).2 := by
  cases alone : (LowerComments.updateFile target strategy start path).1 with
  | error fault =>
    rw [(tracks.updateFile_fails regular alone).1]
    exact tracks
  | ok outcome =>
    obtain ⟨later, after, updated, _, tracked, _⟩ := tracks.updateFile_succeeds regular alone
    rw [updated]
    exact tracked

end Updates

end LowerComments
