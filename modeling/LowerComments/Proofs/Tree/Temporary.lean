import LowerComments.Proofs.Tree.Paths
import LowerComments.Proofs.Utf8.RoundTrip
import Mathlib.Data.Finset.Card

/-!
# Temporary names

The temporary file beside a file takes a name that no entry of the directory has.
One is always found: the names that are tried are all different, and there is one
more of them than the tree has entries (`entryAt_freshName`). Which one it is depends
on the names that are taken and on nothing else (`SameShape.freshName`).
-/

set_option autoImplicit false

namespace LowerComments

namespace Tree

theorem temporaryName_injective : Function.Injective temporaryName := by
  intro left right same
  have digits := Bytes.ofString_injective (List.append_cancel_left same)
  have read := congrArg (fun text => Nat.ofDigitChars 10 text.toList 0) digits
  simpa using read

variable {tree : Tree} {directory : Place}

/-- Not every name that is tried is taken. -/
theorem exists_free_name (tree : Tree) (directory : Place) :
    ∃ attempt ∈ List.range (tree.entries.items.length + 1),
      tree.entryAt (temporaryName attempt :: directory) = none := by
  by_contra crowded
  -- Each attempt then gives a key of the catalog, and different attempts give different keys.
  have taken : ∀ attempt ∈ Finset.range (tree.entries.items.length + 1),
      temporaryName attempt :: directory ∈ (tree.entries.items.map Prod.fst).toFinset := by
    intro attempt tried
    obtain ⟨entry, found⟩ := Option.ne_none_iff_exists'.mp fun missing =>
      crowded ⟨attempt, List.mem_range.mpr (Finset.mem_range.mp tried), missing⟩
    exact List.mem_toFinset.mpr (List.mem_map_of_mem (Catalog.mem_items_of_get? found))
  have bounded := Finset.card_le_card_of_injOn _ taken fun left _ right _ same =>
    temporaryName_injective (List.cons.inj same).1
  have keys := List.toFinset_card_le (tree.entries.items.map Prod.fst)
  rw [Finset.card_range] at bounded
  rw [List.length_map] at keys
  omega

/-- The fresh name is the first one that is not taken. -/
theorem freshName_eq (tree : Tree) (directory : Place) :
    ∃ attempt, tree.freshName directory = temporaryName attempt ∧
      tree.entryAt (temporaryName attempt :: directory) = none ∧
      ∀ earlier < attempt, (tree.entryAt (temporaryName earlier :: directory)).isSome := by
  obtain ⟨free, tried, missing⟩ := exists_free_name tree directory
  unfold freshName
  cases found : (List.range (tree.entries.items.length + 1)).find? fun attempt =>
      (tree.entryAt (temporaryName attempt :: directory)).isNone with
  | none =>
    have taken := List.find?_eq_none.mp found free tried
    rw [missing] at taken
    exact absurd rfl taken
  | some attempt =>
    obtain ⟨here, _, before⟩ := List.find?_range_eq_some.mp found
    refine ⟨attempt, by simp only [found, Option.getD_some], Option.isNone_iff_eq_none.mp here,
      fun earlier less => ?_⟩
    have taken := before earlier less
    rwa [Option.not_isNone] at taken

/-- **No entry has the fresh name.** -/
theorem entryAt_freshName (tree : Tree) (directory : Place) :
    tree.entryAt (tree.freshName directory :: directory) = none := by
  obtain ⟨attempt, same, missing, _⟩ := freshName_eq tree directory
  rwa [same]

end Tree

/-- **Trees with the same names have the same fresh name.** -/
theorem SameShape.freshName {before after : Tree}
    (same : SameShape before after) (directory : Place) :
    after.freshName directory = before.freshName directory := by
  obtain ⟨left, leftName, leftFree, leftFirst⟩ := Tree.freshName_eq after directory
  obtain ⟨right, rightName, rightFree, rightFirst⟩ := Tree.freshName_eq before directory
  have notEarlier : ¬ left < right := by
    intro less
    have taken := rightFirst left less
    rw [← same.entryAt_isSome, leftFree] at taken
    exact absurd taken (by simp)
  have notLater : ¬ right < left := by
    intro less
    have taken := leftFirst right less
    rw [same.entryAt_isSome, rightFree] at taken
    exact absurd taken (by simp)
  have first : left = right :=
    Nat.le_antisymm (Nat.le_of_not_lt notLater) (Nat.le_of_not_lt notEarlier)
  rw [leftName, rightName, first]

end LowerComments
