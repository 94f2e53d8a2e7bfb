import LowerComments.Discovery
import LowerComments.Proofs.Tree.Paths
import Mathlib.Data.List.Nodup

/-!
# What discovery gives

The entries of a directory have different names, and putting different names behind
one path gives different paths. Discovery therefore lists no path twice
(`nodup_discover`), and every path that it lists leads to a regular file
(`isRegularFile_of_mem_discover`).

A directory lists its names in no particular order, and discovery sorts them. A list
has one sorted order only, since the order of byte strings is total and antisymmetric.
Trees of one shape in which the same paths lead to regular files are therefore
discovered alike, name by name (`discover_congr`).
-/

set_option autoImplicit false

namespace LowerComments

/-! ## Sorting moves items -/

section Sorting

variable {Item : Type} (comesFirst : Item → Item → Bool)

theorem perm_insertBy (item : Item) (items : List Item) :
    (insertBy comesFirst item items).Perm (item :: items) := by
  induction items with
  | nil => exact List.Perm.refl _
  | cons other rest ih =>
    rw [insertBy]
    split
    · exact List.Perm.refl _
    · exact (ih.cons other).trans (List.Perm.swap item other rest)

/-- **A list and its sorted list have the same items, equally often.** -/
theorem perm_sortBy (items : List Item) : (sortBy comesFirst items).Perm items := by
  induction items with
  | nil => exact List.Perm.refl _
  | cons item rest ih => exact (perm_insertBy comesFirst item _).trans (ih.cons item)

variable {comesFirst}

/-- An item is put into a sorted list where the list stays sorted. -/
theorem pairwise_insertBy
    (total : ∀ left right, comesFirst left right = true ∨ comesFirst right left = true)
    (transitive : ∀ left middle right, comesFirst left middle = true →
      comesFirst middle right = true → comesFirst left right = true)
    (item : Item) {items : List Item}
    (sorted : items.Pairwise fun left right => comesFirst left right = true) :
    (insertBy comesFirst item items).Pairwise fun left right => comesFirst left right = true := by
  induction items with
  | nil => exact List.pairwise_singleton _ item
  | cons other rest ih =>
    obtain ⟨front, sortedRest⟩ := List.pairwise_cons.mp sorted
    rw [insertBy]
    split
    · next first =>
      refine List.pairwise_cons.mpr ⟨fun later member => ?_, sorted⟩
      rcases List.mem_cons.mp member with rfl | behind
      · exact first
      · exact transitive item other later first (front later behind)
    · next second =>
      refine List.pairwise_cons.mpr ⟨fun later member => ?_, ih sortedRest⟩
      rcases mem_insertBy.mp member with rfl | behind
      · exact (total other later).resolve_right second
      · exact front later behind

/-- **A sorted list is in order.** -/
theorem pairwise_sortBy
    (total : ∀ left right, comesFirst left right = true ∨ comesFirst right left = true)
    (transitive : ∀ left middle right, comesFirst left middle = true →
      comesFirst middle right = true → comesFirst left right = true)
    (items : List Item) :
    (sortBy comesFirst items).Pairwise fun left right => comesFirst left right = true := by
  induction items with
  | nil => exact List.Pairwise.nil
  | cons item rest ih => exact pairwise_insertBy total transitive item ih

/-- **Sorting does not depend on the order of the items before.** -/
theorem sortBy_eq_of_perm
    (total : ∀ left right, comesFirst left right = true ∨ comesFirst right left = true)
    (transitive : ∀ left middle right, comesFirst left middle = true →
      comesFirst middle right = true → comesFirst left right = true)
    (antisymmetric : ∀ left right, comesFirst left right = true →
      comesFirst right left = true → left = right)
    {items others : List Item} (same : items.Perm others) :
    sortBy comesFirst items = sortBy comesFirst others := by
  refine List.Perm.eq_of_pairwise (fun left right _ _ => antisymmetric left right)
    (pairwise_sortBy total transitive items) (pairwise_sortBy total transitive others) ?_
  exact ((perm_sortBy _ items).trans same).trans (perm_sortBy _ others).symm

section Images

variable {Image : Type} {imageFirst : Image → Image → Bool} {sends : Item → Image}

theorem insertBy_map {item : Item} {items : List Item}
    (same : ∀ other ∈ items, imageFirst (sends item) (sends other) = comesFirst item other) :
    insertBy imageFirst (sends item) (items.map sends) =
      (insertBy comesFirst item items).map sends := by
  induction items with
  | nil => rfl
  | cons other rest ih =>
    obtain ⟨here, later⟩ := List.forall_mem_cons.mp same
    rw [List.map_cons, insertBy, insertBy, here, ih later]
    split <;> rfl

/-- **Images are sorted as the items are** when they are in the same order. -/
theorem sortBy_map {items : List Item}
    (same : ∀ left ∈ items, ∀ right ∈ items,
      imageFirst (sends left) (sends right) = comesFirst left right) :
    sortBy imageFirst (items.map sends) = (sortBy comesFirst items).map sends := by
  induction items with
  | nil => rfl
  | cons item rest ih =>
    obtain ⟨here, later⟩ := List.forall_mem_cons.mp same
    have behind := ih fun left member right other =>
      later left member right (List.mem_cons_of_mem item other)
    rw [List.map_cons, sortBy, List.foldr_cons, ← sortBy, behind, insertBy_map fun other member =>
      here other (List.mem_cons_of_mem item (mem_sortBy.mp member))]
    rfl

end Images

end Sorting

/-- The order of byte strings is the lexicographic order of lists. -/
theorem Bytes.le_iff {left right : Bytes} : Bytes.le left right = true ↔ left ≤ right := by
  induction left generalizing right with
  | nil => simp [Bytes.le]
  | cons first rest ih =>
    cases right with
    | nil => simp [Bytes.le]
    | cons other others =>
      rw [Bytes.le, List.cons_le_cons_iff]
      by_cases same : first = other
      · rw [if_pos same, ih]
        simp [same]
      · rw [if_neg same, decide_eq_true_eq]
        simp [same]

theorem Bytes.le_total (left right : Bytes) :
    Bytes.le left right = true ∨ Bytes.le right left = true := by
  rw [Bytes.le_iff, Bytes.le_iff]
  exact List.le_total left right

theorem Bytes.le_trans (left middle right : Bytes) (before : Bytes.le left middle = true)
    (after : Bytes.le middle right = true) : Bytes.le left right = true :=
  Bytes.le_iff.mpr (List.le_trans (Bytes.le_iff.mp before) (Bytes.le_iff.mp after))

/-- The byte order sorts the same names into one list. -/
theorem sortBy_le_eq_of_perm {names others : List Bytes} (same : names.Perm others) :
    sortBy Bytes.le names = sortBy Bytes.le others :=
  sortBy_eq_of_perm Bytes.le_total Bytes.le_trans
    (fun _ _ before after => List.le_antisymm (Bytes.le_iff.mp before) (Bytes.le_iff.mp after)) same

/-- Different names are sorted into a strictly increasing list. -/
theorem pairwise_lt_sortBy {names : List Bytes} (once : names.Nodup) :
    (sortBy Bytes.le names).Pairwise (· < ·) := by
  have apart : (sortBy Bytes.le names).Pairwise (· ≠ ·) :=
    (perm_sortBy Bytes.le names).nodup_iff.mpr once
  refine ((pairwise_sortBy Bytes.le_total Bytes.le_trans names).and apart).imp ?_
  rintro left right ⟨before, different⟩
  exact Std.lt_of_le_of_ne (Bytes.le_iff.mp before) different

/-! ## Names in a directory -/

theorem Path.join_injective (directory : Path) : Function.Injective directory.join := by
  intro left right same
  rw [Path.join, Path.join] at same
  split at same
  · exact List.append_cancel_left same
  · exact (List.cons.inj (List.append_cancel_left same)).2

/-- No name is listed twice in a directory. -/
theorem Tree.nodup_children (tree : Tree) (directory : Place) :
    (tree.children directory).Nodup := by
  -- The keys of a catalog are distinct, and a name in the directory is read off its key.
  have keys := List.pairwise_map.mp tree.entries.distinct
  refine keys.filterMap _ fun left right apart name here other there same => apart ?_
  rcases left with ⟨_ | ⟨first, parent⟩, entry⟩
  · exact absurd here (by simp)
  · rcases right with ⟨_ | ⟨second, parent'⟩, entry'⟩
    · exact absurd there (by simp)
    · simp only [Option.ite_none_right_eq_some, Option.some.injEq] at here there
      rw [here.1, here.2, there.1, there.2, same]

/-- The names in a directory are those of the entries in it. -/
theorem Tree.mem_children {tree : Tree} {directory : Place} {name : Name} :
    name ∈ tree.children directory ↔ (tree.entryAt (name :: directory)).isSome := by
  rw [Tree.children, List.mem_filterMap, Tree.entryAt, Catalog.get?, Option.isSome_map,
    List.find?_isSome]
  refine exists_congr fun item => and_congr_right fun _ => ?_
  rcases item with ⟨_ | ⟨first, parent⟩, entry⟩
  · simp
  · simp [and_comm]

/-- A directory holds the same names in trees of one shape. -/
theorem SameShape.children {before after : Tree} (shape : SameShape before after)
    (directory : Place) : (after.children directory).Perm (before.children directory) := by
  refine (List.perm_ext_iff_of_nodup (after.nodup_children _) (before.nodup_children _)).mpr
    fun name => ?_
  rw [Tree.mem_children, Tree.mem_children, shape.entryAt_isSome]

/-- What a path lists is a matter of the shape of the place that it leads to. -/
theorem Tree.list_eq (tree : Tree) (path : Path) :
    tree.list path =
      match tree.locate true path with
      | .error fault => .error fault
      | .ok place =>
        match tree.shapeAt place with
        | none => .error (.system .notFound)
        | some (.directory _ _) => .ok (tree.children place)
        | some _ => .error (.system .notDirectory) := by
  rw [Tree.list, Tree.find]
  cases tree.locate true path with
  | error fault => rfl
  | ok place =>
    simp only [Tree.shapeAt]
    cases tree.entryAt place with
    | none => rfl
    | some entry => cases entry <;> rfl

theorem Tree.nodup_list {tree : Tree} {path : Path} {names : List Name}
    (listed : tree.list path = .ok names) : names.Nodup := by
  rw [Tree.list] at listed
  split at listed
  · exact absurd listed (by simp)
  · rw [← Except.ok.inj listed]
    exact tree.nodup_children _
  · exact absurd listed (by simp)

/-! ## Discovered paths -/

variable {tree : Tree} {target : Target} {root : Path} {files : List Path}

theorem discover_eq_ok_iff : discover tree target root = .ok files ↔
    ∃ names, tree.list root = .ok names ∧ files = (sortBy Bytes.le (names.filter fun name =>
      target.accepts name && tree.isRegularFile (root.join name))).map root.join := by
  rw [discover]
  cases tree.list root with
  | error cause => simp
  | ok names => simp [eq_comm]

/-- **No path is discovered twice.** -/
theorem nodup_discover (found : discover tree target root = .ok files) : files.Nodup := by
  obtain ⟨names, listed, rfl⟩ := discover_eq_ok_iff.mp found
  refine List.Nodup.map root.join_injective ?_
  exact (perm_sortBy _ _).nodup_iff.mpr ((Tree.nodup_list listed).filter _)

/-- **Every discovered path leads to a regular file.** -/
theorem isRegularFile_of_mem_discover (found : discover tree target root = .ok files)
    {path : Path} (member : path ∈ files) : tree.isRegularFile path = true := by
  obtain ⟨names, listed, rfl⟩ := discover_eq_ok_iff.mp found
  obtain ⟨name, kept, rfl⟩ := List.mem_map.mp member
  have accepted := (List.mem_filter.mp (mem_sortBy.mp kept)).2
  exact (Bool.and_eq_true_iff.mp accepted).2

/-- **The same files are discovered in trees of one shape**, if the same paths lead to regular
files in them. -/
theorem discover_congr {before after : Tree} (shape : SameShape before after)
    (regular : ∀ path, after.isRegularFile path = before.isRegularFile path) (target : Target)
    (root : Path) : discover after target root = discover before target root := by
  have accepts : (fun name => target.accepts name && after.isRegularFile (root.join name)) =
      fun name => target.accepts name && before.isRegularFile (root.join name) :=
    funext fun name => by rw [regular]
  rw [discover, discover, Tree.list_eq, Tree.list_eq, shape.locate, accepts]
  cases before.locate true root with
  | error fault => rfl
  | ok place =>
    simp only [shape.shapeAt]
    cases before.shapeAt place with
    | none => rfl
    | some entry =>
      cases entry with
      | directory mode isSealed =>
        simp only
        rw [sortBy_le_eq_of_perm ((shape.children place).filter _)]
      | link number path => rfl
      | file number => rfl

end LowerComments
