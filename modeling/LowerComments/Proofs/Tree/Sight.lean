import LowerComments.Proofs.Tree.Paths

/-!
# Trees that look the same

What can be told of a tree is what one sees at each place and which places name one
file. Two trees with the same sights agree in names, link texts, permission bits and
the bytes and refusals of files (`SameSight`); a tree is unchanged when moreover the
same places name one file as before (`Unchanged`). Numbers do not count, and neither
do the bytes that the tree keeps under a number which no entry carries.

Sights are shown equal in one of two ways. When all entries are the same, only the
files under the numbers that are carried have to be compared
(`Unchanged.of_entries`). When entries took other numbers, the shapes of the trees and
the files that places name are enough (`SameSight.of_shape`).
-/

set_option autoImplicit false

namespace LowerComments

/-- One sees the same at every place of both trees. -/
structure SameSight (before after : Tree) : Prop where
  workingDirectory : after.workingDirectory = before.workingDirectory
  see? : ∀ place, after.see? place = before.see? place

/-- What path resolution looks at in what one sees. -/
def Sight.way : Sight → Entry
  | .directory _ _ => .directory 0 false
  | .link path => .link 0 path
  | .file _ => .file 0

/-- Nothing that can be told of a tree has changed. -/
structure Unchanged (before after : Tree) : Prop extends SameSight before after where
  sameFile : ∀ left right, after.sameFile left right ↔ before.sameFile left right

namespace Tree

/-- What one sees at a place is its shape together with the file that it names. -/
theorem see?_eq (tree : Tree) (place : Place) :
    tree.see? place =
      match tree.shapeAt place with
      | none => none
      | some (.directory mode isSealed) => some (.directory mode isSealed)
      | some (.link _ path) => some (.link path)
      | some (.file _) => (tree.file? place).map .file := by
  rw [see?, shapeAt, file?]
  cases tree.entryAt place with
  | none => rfl
  | some entry => cases entry <;> rfl

/-- Path resolution looks at nothing that one does not see. -/
theorem way_entryAt (tree : Tree) (place : Place) :
    (tree.entryAt place).map Entry.way = (tree.see? place).map Sight.way := by
  rw [see?, Option.map_map]
  refine congrFun (congrArg Option.map (funext fun entry => ?_)) _
  cases entry <;> rfl

/-- A place with the same entry looks the same if the number of its file holds the same. -/
theorem see?_congr {before after : Tree} {place : Place}
    (entry : after.entryAt place = before.entryAt place)
    (held : ∀ number, before.entryAt place = some (.file number) →
      after.file number = before.file number) : after.see? place = before.see? place := by
  have shape : after.shapeAt place = before.shapeAt place := by rw [shapeAt, shapeAt, entry]
  rw [see?_eq, see?_eq, shape, file?_congr entry held]

/-- A place names a file exactly when one sees that file there. -/
theorem see?_eq_some_file_iff {tree : Tree} {place : Place} {file : File} :
    tree.see? place = some (.file file) ↔ tree.file? place = some file := by
  rw [see?, file?]
  cases tree.entryAt place with
  | none => simp
  | some entry => cases entry <;> simp [sightOf]

end Tree

namespace SameSight

variable {before middle after : Tree}

theorem refl (tree : Tree) : SameSight tree tree where
  workingDirectory := rfl
  see? _ := rfl

theorem trans (earlier : SameSight before middle) (later : SameSight middle after) :
    SameSight before after where
  workingDirectory := later.workingDirectory.trans earlier.workingDirectory
  see? place := (later.see? place).trans (earlier.see? place)

/-- Places name the same files in both trees. -/
theorem file? (same : SameSight before after) (place : Place) :
    after.file? place = before.file? place := by
  refine Option.ext fun file => ?_
  rw [← Tree.see?_eq_some_file_iff, ← Tree.see?_eq_some_file_iff, same.see?]

/-- **Trees of one shape in which places name the same files look the same.** -/
theorem of_shape (shape : SameShape before after)
    (file? : ∀ place, after.file? place = before.file? place) : SameSight before after where
  workingDirectory := shape.workingDirectory
  see? place := by rw [Tree.see?_eq, Tree.see?_eq, shape.shapeAt, file?]

end SameSight

namespace Unchanged

variable {before middle after : Tree}

theorem refl (tree : Tree) : Unchanged tree tree where
  toSameSight := SameSight.refl tree
  sameFile _ _ := Iff.rfl

theorem trans (earlier : Unchanged before middle) (later : Unchanged middle after) :
    Unchanged before after where
  toSameSight := earlier.toSameSight.trans later.toSameSight
  sameFile left right := (later.sameFile left right).trans (earlier.sameFile left right)

/-- **A tree with the same entries and the same files under the numbers that they carry is
unchanged.** -/
theorem of_entries (workingDirectory : after.workingDirectory = before.workingDirectory)
    (entryAt : ∀ place, after.entryAt place = before.entryAt place)
    (file : ∀ place number, before.entryAt place = some (.file number) →
      after.file number = before.file number) : Unchanged before after where
  workingDirectory := workingDirectory
  see? place := Tree.see?_congr (entryAt place) (file place)
  sameFile left right := by simp only [Tree.sameFile, entryAt]

end Unchanged

end LowerComments
