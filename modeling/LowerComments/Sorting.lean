/-!
# Sorting

Lists are sorted by insertion, in an order that is given as a test. The definition is
by structural recursion, and sorting only moves items: what is in the list stays in it.
-/

set_option autoImplicit false

namespace LowerComments

variable {Item : Type}

/-- Puts an item into a list in front of the first one that may follow it. -/
def insertBy (comesFirst : Item → Item → Bool) (item : Item) : List Item → List Item
  | [] => [item]
  | other :: rest =>
    if comesFirst item other then item :: other :: rest
    else other :: insertBy comesFirst item rest

/-- The items in the given order. -/
def sortBy (comesFirst : Item → Item → Bool) (items : List Item) : List Item :=
  items.foldr (insertBy comesFirst) []

@[simp] theorem mem_insertBy {comesFirst : Item → Item → Bool} {item other : Item}
    {items : List Item} :
    other ∈ insertBy comesFirst item items ↔ other = item ∨ other ∈ items := by
  induction items with
  | nil => simp [insertBy]
  | cons head rest ih =>
    unfold insertBy
    split
    · simp
    · simp [ih, or_left_comm]

@[simp] theorem mem_sortBy {comesFirst : Item → Item → Bool} {item : Item} {items : List Item} :
    item ∈ sortBy comesFirst items ↔ item ∈ items := by
  induction items with
  | nil => simp [sortBy]
  | cons head rest ih =>
    have unfolded : sortBy comesFirst (head :: rest) =
        insertBy comesFirst head (sortBy comesFirst rest) := rfl
    simp [unfolded, ih]

end LowerComments
