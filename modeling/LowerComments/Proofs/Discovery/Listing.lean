import LowerComments.Proofs.Run.Lockstep
import LowerComments.Proofs.Tree.Joined

/-!
# Which files a directory has, and in which order

Discovery keeps the entries of a directory whose names a target accepts and whose paths lead to
regular files. What it keeps is sorted by name, so that the order in which the entries are
listed does not count (`discover_of_find`). Discovery fails when the directory cannot be
listed, and for no other reason (`discover_eq_error_iff`): an entry that leads nowhere, or to
something other than a regular file, is passed over.

One may also sort the whole paths, in the order that paths have. The names in a directory
begin with nothing that this order would treat in another way than the order of names does,
and so the result is the same (`discoverListed_eq`).
-/

set_option autoImplicit false

namespace LowerComments

/-- The names that discovery keeps of those listed in a directory. -/
def Target.kept (target : Target) (tree : Tree) (root : Path) (listing : List Name) : List Name :=
  listing.filter fun name => target.accepts name && tree.isRegularFile (root.join name)

/-- The paths of a target's files as they are listed in a directory, in the order of paths. -/
def discoverListed (tree : Tree) (target : Target) (root : Path) (listing : List Name) :
    List Path :=
  sortBy Path.le ((target.kept tree root listing).map root.join)

section Kept

variable {tree : Tree} {target : Target} {root : Path} {place : Place} {mode : Nat}
  {isSealed : Bool} {name : Name} {listing : List Name}

theorem Target.accepts_iff : target.accepts name = true ↔ target.extension <:+ name :=
  List.isSuffixOf_iff_suffix

/-- A name is kept when it is listed, accepted and leads to a regular file. -/
theorem Target.mem_kept : name ∈ target.kept tree root listing ↔
    name ∈ listing ∧ target.extension <:+ name ∧
      ∃ found file, tree.LeadsTo (root.join name) found file ∧ file.isRegular = true := by
  rw [Target.kept, List.mem_filter, Bool.and_eq_true, Target.accepts_iff, Tree.isRegularFile_iff]

/-- **Discovery fails when the directory cannot be listed.** -/
theorem discover_eq_error_iff {fault : Fault} : discover tree target root = .error fault ↔
    ∃ cause, tree.list root = .error cause ∧ fault = .discovery root cause := by
  rw [discover]
  cases tree.list root with
  | error cause => simp [eq_comm]
  | ok names => simp

/-- A path is listed when it leads to a directory. -/
theorem Tree.list_of_find (found : tree.find root = .ok (place, .directory mode isSealed)) :
    tree.list root = .ok (tree.children place) := by
  rw [Tree.list, found]

theorem Tree.exists_list_iff : (∃ names, tree.list root = .ok names) ↔
    ∃ place mode isSealed, tree.find root = .ok (place, .directory mode isSealed) := by
  constructor
  · rintro ⟨names, listed⟩
    rw [Tree.list] at listed
    split at listed
    · exact absurd listed (by simp)
    · next place mode isSealed found => exact ⟨place, mode, isSealed, found⟩
    · exact absurd listed (by simp)
  · rintro ⟨place, mode, isSealed, found⟩
    exact ⟨_, Tree.list_of_find found⟩

/-- **Discovery gives the names that it keeps**, sorted and behind the path of the directory. -/
theorem discover_of_find (found : tree.find root = .ok (place, .directory mode isSealed)) :
    discover tree target root =
      .ok ((sortBy Bytes.le (target.kept tree root (tree.children place))).map root.join) := by
  rw [discover, Tree.list_of_find found]
  rfl

/-- The order in which a tree keeps its entries and its files decides nothing. -/
theorem discover_of_entries {other : Tree}
    (workingDirectory : other.workingDirectory = tree.workingDirectory)
    (entryAt : ∀ place, other.entryAt place = tree.entryAt place)
    (file : ∀ number, other.file number = tree.file number) :
    discover other target root = discover tree target root := by
  have shape : SameShape tree other :=
    ⟨workingDirectory, fun place => congrArg (Option.map Entry.shape) (entryAt place)⟩
  have file? (place : Place) : other.file? place = tree.file? place :=
    Tree.file?_congr (entryAt place) fun number _ => file number
  refine discover_congr shape (fun path => ?_) target root
  rw [Bool.eq_iff_iff, Tree.isRegularFile_iff, Tree.isRegularFile_iff]
  refine exists_congr fun place => exists_congr fun found => and_congr_left fun _ => ?_
  exact ⟨fun leads => ⟨(shape.locate true path).symm.trans leads.locate,
      (file? place).symm.trans leads.file?⟩,
    fun leads => ⟨(shape.locate true path).trans leads.locate, (file? place).trans leads.file?⟩⟩

/-- **Whole paths are sorted as the names are**, and in whatever order the names are listed. -/
theorem discoverListed_eq {names : List Name} (same : listing.Perm names)
    (proper : ∀ name ∈ listing, Path.IsName name) :
    discoverListed tree target root listing =
      (sortBy Bytes.le (target.kept tree root names)).map root.join := by
  have listed (name : Name) (member : name ∈ target.kept tree root listing) : Path.IsName name :=
    proper name (Target.mem_kept.mp member).1
  have order : sortBy Path.le ((target.kept tree root listing).map root.join) =
      (sortBy Bytes.le (target.kept tree root listing)).map root.join :=
    sortBy_map fun left member right other =>
      Path.le_join root (listed left member) (listed right other)
  rw [discoverListed, order, Target.kept, sortBy_le_eq_of_perm (same.filter _), ← Target.kept]

/-- The entry that a listed name stands for decides whether it is kept, when it is a directory or
a file and the path is not too long to be asked for. -/
theorem mem_kept_of_entryAt (found : tree.find root = .ok (place, .directory mode isSealed))
    (proper : Path.IsName name) (short : name.length ≤ maximalName)
    (fits : (root.join name).length < pathLimit) :
    (∀ mode isSealed, tree.entryAt (name :: place) = some (.directory mode isSealed) →
      name ∉ target.kept tree root (tree.children place)) ∧
    ∀ number, tree.entryAt (name :: place) = some (.file number) →
      (name ∈ target.kept tree root (tree.children place) ↔
        target.extension <:+ name ∧ (tree.file number).isRegular = true) := by
  constructor
  · intro ownMode ownSeal entry member
    have reached := Tree.locate_join found proper short fits true (by simp [entry])
    obtain ⟨_, _, _, file, leads, _⟩ := Target.mem_kept.mp member
    obtain rfl := Except.ok.inj (reached.symm.trans leads.locate)
    obtain ⟨number, named, _⟩ := Tree.file?_eq_some_iff.mp leads.file?
    exact absurd (entry.symm.trans named) (by simp)
  · intro number entry
    have reached := Tree.locate_join found proper short fits true (by simp [entry])
    have leads : tree.LeadsTo (root.join name) (name :: place) (tree.file number) :=
      ⟨reached, Tree.file?_of_entryAt entry⟩
    rw [Target.mem_kept, Tree.mem_children, entry]
    refine ⟨?_, fun ⟨accepted, regular⟩ => ⟨rfl, accepted, _, _, leads, regular⟩⟩
    rintro ⟨_, accepted, other, file, again, regular⟩
    obtain rfl := Except.ok.inj (reached.symm.trans again.locate)
    rw [Option.some.inj (leads.file?.symm.trans again.file?)]
    exact ⟨accepted, regular⟩

end Kept

/-- **Discovery finds the regular files of a target in a directory, in the order of their names.**
It fails exactly when the directory cannot be listed, that is when the path leads to none, and a
run that finds nothing leaves the tree as it is. The names found are strictly increasing. They are
those of the entries in the directory that end in the extension and lead to a regular file; an
entry that is a directory itself is not among them, and one that is a file is if it is regular. In
whatever order the entries are listed, sorting the whole paths gives the same list. -/
theorem discover_finds (tree : Tree) (target : Target) (root : Path) :
    (∀ fault, discover tree target root = .error fault ↔
      ∃ cause, tree.list root = .error cause ∧ fault = .discovery root cause) ∧
    ((∃ names, tree.list root = .ok names) ↔
      ∃ place mode isSealed, tree.find root = .ok (place, .directory mode isSealed)) ∧
    (∀ options out err, options.target = target →
      (∀ files, discover tree target root = .ok files → files = []) →
      (run options tree root out err).tree = tree) ∧
    (∀ other : Tree, other.workingDirectory = tree.workingDirectory →
      (∀ place, other.entryAt place = tree.entryAt place) →
      (∀ number, other.file number = tree.file number) →
      discover other target root = discover tree target root) ∧
    ∀ place mode isSealed, tree.find root = .ok (place, .directory mode isSealed) →
      ∃ names : List Name,
        discover tree target root = .ok (names.map root.join) ∧
        names.Pairwise (· < ·) ∧
        (∀ name, name ∈ names ↔ (tree.entryAt (name :: place)).isSome ∧
          target.extension <:+ name ∧
          ∃ found file, tree.LeadsTo (root.join name) found file ∧ file.isRegular = true) ∧
        (∀ name, Path.IsName name → name.length ≤ maximalName →
          (root.join name).length < pathLimit →
          (∀ mode isSealed, tree.entryAt (name :: place) = some (.directory mode isSealed) →
            name ∉ names) ∧
          ∀ number, tree.entryAt (name :: place) = some (.file number) →
            (name ∈ names ↔
              target.extension <:+ name ∧ (tree.file number).isRegular = true)) ∧
        ∀ listing, listing.Perm (tree.children place) →
          (∀ name ∈ listing, Path.IsName name) →
          discoverListed tree target root listing = names.map root.join := by
  refine ⟨fun fault => discover_eq_error_iff, Tree.exists_list_iff,
    fun options out err same nothing => ?_,
    fun other workingDirectory entryAt file => discover_of_entries workingDirectory entryAt file,
    fun place mode isSealed found => ?_⟩
  · rw [run_tree, RunOptions.record, same]
    cases listed : discover tree target root with
    | error fault => rfl
    | ok files =>
      obtain rfl := nothing files listed
      rfl
  · have once : (target.kept tree root (tree.children place)).Nodup :=
      (tree.nodup_children place).filter _
    refine ⟨_, discover_of_find found, pairwise_lt_sortBy once, fun name => ?_,
      fun name proper short fits => ?_, fun listing same proper => discoverListed_eq same proper⟩
    · rw [mem_sortBy, Target.mem_kept, Tree.mem_children]
    · simp only [mem_sortBy]
      exact mem_kept_of_entryAt found proper short fits

/-- A directory with a file, a link to it, a link that leads nowhere, a directory with the name of
a file, one with a file in it, and a file of another kind. -/
def crowdedTree : Tree :=
  let files := ((({} : Tree).addFile [Bytes.ofString "b.lua"] {}).addFile
    [Bytes.ofString "x.txt"] {}).setEntry [Bytes.ofString "d.lua"] (.directory 0o755 false)
  let deeper := (files.setEntry [Bytes.ofString "sub"] (.directory 0o755 false)).addFile
    [Bytes.ofString "deep.lua", Bytes.ofString "sub"] {}
  (deeper.addLink [Bytes.ofString "a.lua"] (Bytes.ofString "b.lua")).addLink
    [Bytes.ofString "c.lua"] (Bytes.ofString "missing")

/-- The file and the link to it are found, also when the entries are listed the other way round;
and a file cannot be listed. -/
theorem discover_finds_crowdedTree :
    let root := Bytes.ofString "./"
    let found := [Bytes.ofString "./a.lua", Bytes.ofString "./b.lua"]
    discover crowdedTree .lua root = .ok found ∧
      discoverListed crowdedTree .lua root (crowdedTree.children []).reverse = found ∧
      discover crowdedTree .lua (Bytes.ofString "x.txt") =
        .error (.discovery (Bytes.ofString "x.txt") (.system .notDirectory)) := by
  intro root found
  have listed : crowdedTree.find root = .ok ([], .directory 0o755 false) := rfl
  have seen : discover crowdedTree .lua root = .ok found := rfl
  obtain ⟨_, _, _, _, finds⟩ := discover_finds crowdedTree .lua root
  obtain ⟨names, discovered, _, _, _, orders⟩ := finds _ _ _ listed
  obtain ⟨fails, _⟩ := discover_finds crowdedTree .lua (Bytes.ofString "x.txt")
  refine ⟨seen, ?_, (fails _).mpr ⟨_, rfl, rfl⟩⟩
  rw [orders _ (List.reverse_perm _) (by decide +kernel)]
  exact Except.ok.inj (discovered.symm.trans seen)

end LowerComments
