import LowerComments.Tree.Replace
import LowerComments.Tree.View

/-!
# What single changes do to a tree

Each operation on the entries and files of a tree is described by what it leaves at
every place and under every number. The root always holds a directory, so the
equations for entries are about places below it.

Three readings of a tree recur. `shapeAt` is what path resolution can tell of a
place: everything but the number of a file. `file?` is the file that a place names.
`outlineAt` is what one sees at a place apart from the bytes of a file, that is the
kind of the entry, the path of a link and the permission bits.
-/

set_option autoImplicit false

namespace LowerComments

/-! ## Catalogs -/

namespace Catalog

variable {Key Value : Type} [DecidableEq Key]

/-- A catalog without a key is not changed by erasing the key. -/
theorem erase_of_get?_eq_none {catalog : Catalog Key Value} {key : Key}
    (missing : catalog.get? key = none) : catalog.erase key = catalog := by
  have kept : ∀ item ∈ catalog.items, decide (item.1 ≠ key) = true := by
    intro item member
    have other := List.find?_eq_none.mp (Option.map_eq_none_iff.mp missing) item member
    simpa using other
  have same : (catalog.erase key).items = catalog.items := List.filter_eq_self.mpr kept
  cases catalog
  simp only [erase, mk.injEq] at same ⊢
  exact same

theorem mem_items_of_get? {catalog : Catalog Key Value} {key : Key} {value : Value}
    (found : catalog.get? key = some value) : (key, value) ∈ catalog.items := by
  obtain ⟨item, first, same⟩ := Option.map_eq_some_iff.mp found
  have here : item.1 = key := by simpa using List.find?_some first
  rw [← here, ← same]
  exact List.mem_of_find?_eq_some first

end Catalog

/-! ## Shapes and outlines -/

/-- An entry without the number of its file. -/
def Entry.shape : Entry → Entry
  | .file _ => .file 0
  | other => other

/-- A file without its bytes and without its refusals. -/
def File.outline (file : File) : File :=
  { mode := file.mode, isRegular := file.isRegular }

/-- What one sees, without the bytes of a file and without its refusals. -/
def Sight.outline : Sight → Sight
  | .file held => .file held.outline
  | other => other

namespace Tree

variable {tree : Tree} {place other : Place}

/-- What path resolution can tell of a place. -/
def shapeAt (tree : Tree) (place : Place) : Option Entry :=
  (tree.entryAt place).map Entry.shape

/-- The file that a place names. -/
def file? (tree : Tree) (place : Place) : Option File :=
  match tree.entryAt place with
  | some (.file number) => some (tree.file number)
  | _ => none

/-- What one sees at a place apart from the bytes of a file. -/
def outlineAt (tree : Tree) (place : Place) : Option Sight :=
  (tree.see? place).map Sight.outline

/-- The bytes of the file that a place names. -/
def contentAt (tree : Tree) (place : Place) : Option Bytes :=
  (tree.file? place).map File.content

theorem file?_eq_some_iff {file : File} :
    tree.file? place = some file ↔
      ∃ number, tree.entryAt place = some (.file number) ∧ tree.file number = file := by
  unfold file?
  constructor
  · intro found
    split at found
    · next number entry => exact ⟨number, entry, Option.some.inj found⟩
    · exact absurd found (by simp)
  · rintro ⟨number, entry, rfl⟩
    rw [entry]

theorem file?_of_entryAt {number : Nat} (entry : tree.entryAt place = some (.file number)) :
    tree.file? place = some (tree.file number) :=
  file?_eq_some_iff.mpr ⟨number, entry, rfl⟩

/-- A place with the same entry names the same file if its number holds the same. -/
theorem file?_congr {before after : Tree} (entry : after.entryAt place = before.entryAt place)
    (held : ∀ number, before.entryAt place = some (.file number) →
      after.file number = before.file number) : after.file? place = before.file? place := by
  rw [file?, file?, entry]
  cases there : before.entryAt place with
  | none => rfl
  | some found =>
    cases found with
    | directory mode isSealed => rfl
    | link number path => rfl
    | file number => simp only [held number there]

/-- A place names a file exactly when its shape is that of a file. -/
theorem file?_isSome_iff : (tree.file? place).isSome ↔ tree.shapeAt place = some (.file 0) := by
  unfold file? shapeAt
  cases tree.entryAt place with
  | none => simp
  | some found => cases found <;> simp [Entry.shape]

/-- The outline of a place is its shape together with what one sees of its file. -/
theorem outlineAt_eq (tree : Tree) (place : Place) :
    tree.outlineAt place =
      match tree.shapeAt place with
      | none => none
      | some (.directory mode isSealed) => some (.directory mode isSealed)
      | some (.link _ path) => some (.link path)
      | some (.file _) => ((tree.file? place).map File.outline).map .file := by
  rw [outlineAt, see?, shapeAt, file?]
  cases tree.entryAt place with
  | none => rfl
  | some entry => cases entry <;> rfl

/-- The shape of a place tells whether a directory takes new entries. -/
theorem isSealed_iff : tree.isSealed place = true ↔
    ∃ mode, tree.shapeAt place = some (.directory mode true) := by
  rw [isSealed, shapeAt]
  cases tree.entryAt place with
  | none => simp
  | some entry => cases entry <;> simp [Entry.shape]

theorem entryAt_isSome_iff : (tree.entryAt place).isSome ↔ (tree.shapeAt place).isSome := by
  simp [shapeAt]

/-- Sharing a file does not depend on the order of the names. -/
theorem sameFile_comm {left right : Place} :
    tree.sameFile left right ↔ tree.sameFile right left := by
  constructor
  · rintro ⟨entry, number, numbered, here, there⟩
    exact ⟨entry, number, numbered, there, here⟩
  · rintro ⟨entry, number, numbered, here, there⟩
    exact ⟨entry, number, numbered, there, here⟩

/-- No file has two names in a tree that carries each number once. -/
theorem eq_of_sameFile
    (single : ∀ first ∈ tree.entries.items, ∀ second ∈ tree.entries.items,
      first.2.number?.isSome = true → first.2 = second.2 → first.1 = second.1)
    {left right : Place} (shared : tree.sameFile left right) : left = right := by
  obtain ⟨entry, number, numbered, here, there⟩ := shared
  have listed (place : Place) (found : tree.entryAt place = some entry) :
      (place, entry) ∈ tree.entries.items := by
    cases place with
    | nil =>
      obtain rfl : Entry.directory 0o755 false = entry := Option.some.inj found
      exact absurd numbered (by simp [Entry.number?])
    | cons name parent => exact Catalog.mem_items_of_get? found
  exact single _ (listed left here) _ (listed right there) (by simp [numbered]) rfl

/-! ## Entries -/

@[simp] theorem entryAt_setFile (number : Nat) (file : File) :
    (tree.setFile number file).entryAt place = tree.entryAt place := by
  cases place <;> rfl

@[simp] theorem file_setFile (number number' : Nat) (file : File) :
    (tree.setFile number file).file number' =
      if number' = number then file else tree.file number' := by
  unfold Tree.file setFile
  rw [Catalog.get?_insert]
  split <;> rfl

theorem entryAt_setEntry {entry : Entry} (below : place ≠ []) :
    (tree.setEntry place entry).entryAt other =
      if other = place then some entry else tree.entryAt other := by
  cases other with
  | nil => rw [if_neg (Ne.symm below)]; rfl
  | cons name parent => exact Catalog.get?_insert ..

theorem entryAt_removeEntry (below : place ≠ []) :
    (tree.removeEntry place).entryAt other =
      if other = place then none else tree.entryAt other := by
  cases other with
  | nil => rw [if_neg (Ne.symm below)]; rfl
  | cons name parent => exact Catalog.get?_erase ..

@[simp] theorem file_setEntry (entry : Entry) (number : Nat) :
    (tree.setEntry place entry).file number = tree.file number := rfl

@[simp] theorem file_removeEntry (number : Nat) :
    (tree.removeEntry place).file number = tree.file number := rfl

/-- Removing an entry that is not there leaves the tree as it is. -/
theorem removeEntry_of_entryAt_eq_none (missing : tree.entryAt place = none) :
    tree.removeEntry place = tree := by
  cases place with
  | nil => exact absurd missing (by simp [entryAt])
  | cons name parent =>
    have same := Catalog.erase_of_get?_eq_none missing
    unfold removeEntry
    rw [same]

/-! ## Fresh numbers -/

/-- The fold behind `freshNumber` is above the number of every item. -/
theorem number_lt_foldr {items : List (Place × Entry)} {item : Place × Entry} {number : Nat}
    (member : item ∈ items) (numbered : item.2.number? = some number) :
    number < items.foldr (fun item most => max ((item.2.number?.getD 0) + 1) most) 0 := by
  induction items with
  | nil => exact absurd member List.not_mem_nil
  | cons first rest ih =>
    rw [List.foldr_cons]
    rcases List.mem_cons.mp member with rfl | later
    · rw [numbered, Option.getD_some]
      exact Nat.lt_of_lt_of_le (Nat.lt_succ_self number) (Nat.le_max_left ..)
    · exact Nat.lt_of_lt_of_le (ih later) (Nat.le_max_right ..)

/-- **The fresh number is above every number that an entry carries.** -/
theorem lt_freshNumber {entry : Entry} {number : Nat} (found : tree.entryAt place = some entry)
    (numbered : entry.number? = some number) : number < tree.freshNumber := by
  cases place with
  | nil =>
    obtain rfl : Entry.directory 0o755 false = entry := Option.some.inj found
    exact absurd numbered (by simp [Entry.number?])
  | cons name parent => exact number_lt_foldr (Catalog.mem_items_of_get? found) numbered

/-- A file that a place names does not have the fresh number. -/
theorem ne_freshNumber {number : Nat} (entry : tree.entryAt place = some (.file number)) :
    number ≠ tree.freshNumber :=
  Nat.ne_of_lt (lt_freshNumber entry rfl)

/-! ## New files -/

/-- The root is never free. -/
theorem ne_nil_of_free (free : tree.entryAt place = none) : place ≠ [] := by
  rintro rfl
  exact absurd free (by simp [entryAt])

theorem entryAt_addFile (free : tree.entryAt place = none) (file : File) :
    (tree.addFile place file).entryAt other =
      if other = place then some (.file tree.freshNumber) else tree.entryAt other := by
  rw [addFile, entryAt_setEntry (ne_nil_of_free free), entryAt_setFile]

theorem file_addFile (file : File) (number : Nat) :
    (tree.addFile place file).file number =
      if number = tree.freshNumber then file else tree.file number := by
  rw [addFile, file_setEntry, file_setFile]

end Tree

end LowerComments
