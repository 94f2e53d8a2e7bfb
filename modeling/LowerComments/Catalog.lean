/-!
# Catalogs

A catalog assigns values to finitely many keys, each key at most once. It is the
list of its items in no particular order; `get?` looks a key up, `insert` and
`erase` change what one key holds and nothing else. Those equations are all that
is ever needed of the representation.
-/

set_option autoImplicit false

namespace LowerComments

/-- Finitely many keys, each with one value. -/
structure Catalog (Key Value : Type) where
  items : List (Key × Value) := []
  distinct : (items.map Prod.fst).Nodup := by exact List.nodup_nil

namespace Catalog

variable {Key Value : Type}

/-- The catalog without items. -/
def empty : Catalog Key Value := {}

variable [DecidableEq Key]

/-- What the catalog holds for a key. -/
def get? (catalog : Catalog Key Value) (key : Key) : Option Value :=
  (catalog.items.find? fun item => item.1 = key).map Prod.snd

/-- The catalog without a key. -/
def erase (catalog : Catalog Key Value) (key : Key) : Catalog Key Value where
  items := catalog.items.filter fun item => item.1 ≠ key
  distinct := catalog.distinct.sublist (List.filter_sublist.map Prod.fst)

/-- The catalog with a value for a key, in place of the one that it held. -/
def insert (catalog : Catalog Key Value) (key : Key) (value : Value) : Catalog Key Value where
  items := (key, value) :: (catalog.erase key).items
  distinct := by
    refine List.nodup_cons.mpr ⟨?_, (catalog.erase key).distinct⟩
    intro member
    obtain ⟨item, kept, same⟩ := List.mem_map.mp member
    have other := (List.mem_filter.mp kept).2
    simp [same] at other

@[simp] theorem get?_empty (key : Key) : (empty : Catalog Key Value).get? key = none := rfl

@[simp] theorem get?_erase (catalog : Catalog Key Value) (key other : Key) :
    (catalog.erase key).get? other = if other = key then none else catalog.get? other := by
  unfold get? erase
  by_cases same : other = key
  · subst same
    rw [if_pos rfl, Option.map_eq_none_iff, List.find?_eq_none]
    intro item member
    simpa using (List.mem_filter.mp member).2
  · rw [if_neg same, List.find?_filter]
    congr 2
    funext item
    by_cases here : item.1 = other
    · simp [here, same]
    · simp [here]

@[simp] theorem get?_insert (catalog : Catalog Key Value) (key other : Key) (value : Value) :
    (catalog.insert key value).get? other =
      if other = key then some value else catalog.get? other := by
  by_cases same : other = key
  · subst same
    simp [get?, insert]
  · have erased := get?_erase catalog key other
    rw [if_neg same] at erased
    rw [if_neg same, ← erased]
    simp [get?, insert, Ne.symm same]

end Catalog

end LowerComments
