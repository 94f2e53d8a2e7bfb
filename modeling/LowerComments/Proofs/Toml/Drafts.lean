import LowerComments.Toml.Draft
import Mathlib.Data.List.Nodup

/-!
# The names in a table are distinct

A table has one entry for each of its names, and so have all the tables within it
(`Value.Distinct`). This is so because of the way in which tables are put together. A draft is
only ever altered at one name (`Drafts.alter_cases`): what has the name already is changed where
it stands, and otherwise an entry comes to the end. Following names into the tables within alters
drafts on the way and nothing else (`Drafts.Distinct.within`), and each way of adding to a draft
is one of these alterations. A draft with distinct names then becomes a table with distinct names
(`Drafts.Distinct.close`).
-/

set_option autoImplicit false

namespace LowerComments.Toml

/-! ## Names -/

section Names

variable {Held : Type} {entries : List (String × Held)} {name : String} {held : Held}

/-- No two entries have one name. -/
def DistinctNames (entries : List (String × Held)) : Prop :=
  (entries.map Prod.fst).Nodup

theorem lookup_cons (entry : String × Held) (rest : List (String × Held)) (name : String) :
    (entry :: rest).lookup name = if entry.1 = name then some entry.2 else rest.lookup name := by
  rw [List.lookup_cons]
  by_cases here : entry.1 = name
  · simp [here]
  · simp [here, beq_eq_false_iff_ne.mpr (Ne.symm here)]

theorem lookup_eq_none (missing : name ∉ entries.map Prod.fst) : entries.lookup name = none := by
  refine List.lookup_eq_none_iff.mpr fun entry member => ?_
  have other : name ≠ entry.1 := fun same => missing (same ▸ List.mem_map_of_mem member)
  simpa using other

theorem mem_of_lookup (found : entries.lookup name = some held) : (name, held) ∈ entries := by
  obtain ⟨earlier, later, rfl, -⟩ := List.lookup_eq_some_iff.mp found
  exact List.mem_append_right earlier List.mem_cons_self

/-- **With distinct names an entry is the one that is found under its name.** -/
theorem DistinctNames.lookup_of_mem (distinct : DistinctNames entries)
    (member : (name, held) ∈ entries) : entries.lookup name = some held := by
  obtain ⟨earlier, later, rfl⟩ := List.append_of_mem member
  refine List.lookup_eq_some_iff.mpr ⟨earlier, later, rfl, fun entry before => ?_⟩
  unfold DistinctNames at distinct
  rw [List.map_append, List.map_cons] at distinct
  have apart := (List.nodup_append.mp distinct).2.2 entry.1 (List.mem_map_of_mem before) name
    List.mem_cons_self
  simpa using Ne.symm apart

end Names

/-! ## Values and drafts -/

/-- The names are distinct in each table of a value. -/
inductive Value.Distinct : Value → Prop where
  | string (text : String) : Distinct (.string text)
  | integer (number : Int) : Distinct (.integer number)
  | float (number : Decimal.Binary) : Distinct (.float number)
  | boolean (flag : Bool) : Distinct (.boolean flag)
  | moment : Distinct .moment
  | array (elements : List Value) (held : ∀ element ∈ elements, Distinct element) :
    Distinct (.array elements)
  | table (entries : Table) (names : DistinctNames entries)
    (held : ∀ entry ∈ entries, Distinct entry.2) : Distinct (.table entries)

theorem Value.Distinct.names {entries : Table} (distinct : (Value.table entries).Distinct) :
    DistinctNames entries := by
  cases distinct with
  | table _ names _ => exact names

theorem Value.Distinct.of_lookup {entries : Table} (distinct : (Value.table entries).Distinct)
    {name : String} {value : Value} (found : entries.lookup name = some value) :
    value.Distinct := by
  cases distinct with
  | table _ _ held => exact held _ (mem_of_lookup found)

/-- The names are distinct in each table of a draft. -/
inductive Draft.Distinct : Draft → Prop where
  | closed (value : Value) (held : value.Distinct) : Distinct (.closed value)
  | table (origin : Origin) (entries : Drafts) (names : DistinctNames entries)
    (held : ∀ entry ∈ entries, Distinct entry.2) : Distinct (.table origin entries)
  | tables (earlier : List Drafts) (last : Drafts)
    (names : ∀ entries ∈ earlier ++ [last], DistinctNames entries)
    (held : ∀ entries ∈ earlier ++ [last], ∀ entry ∈ entries, Distinct entry.2) :
    Distinct (.tables earlier last)

namespace Drafts

/-- The names are distinct in the table and in each table within. -/
structure Distinct (entries : Drafts) : Prop where
  names : DistinctNames entries
  held : ∀ entry ∈ entries, entry.2.Distinct

theorem distinct_nil : Distinct [] where
  names := List.nodup_nil
  held := by simp

theorem Distinct.table {entries : Drafts} (distinct : Distinct entries) (origin : Origin) :
    (Draft.table origin entries).Distinct :=
  .table origin entries distinct.names distinct.held

theorem Distinct.tables {earlier : List Drafts} {last : Drafts} (distinct : Distinct last)
    (before : ∀ entries ∈ earlier, Distinct entries) : (Draft.tables earlier last).Distinct := by
  have each : ∀ entries ∈ earlier ++ [last], Distinct entries :=
    List.forall_mem_append.mpr ⟨before, List.forall_mem_singleton.mpr distinct⟩
  exact .tables earlier last (fun entries member => (each entries member).names)
    fun entries member => (each entries member).held

theorem of_table {origin : Origin} {entries : Drafts}
    (distinct : (Draft.table origin entries).Distinct) : Distinct entries := by
  cases distinct with
  | table _ _ names held => exact ⟨names, held⟩

theorem of_tables {earlier : List Drafts} {last : Drafts}
    (distinct : (Draft.tables earlier last).Distinct) :
    ∀ entries ∈ earlier ++ [last], Distinct entries := by
  cases distinct with
  | tables _ _ names held => exact fun entries there => ⟨names entries there, held entries there⟩

theorem Distinct.get? {entries : Drafts} (distinct : Distinct entries) {name : String}
    {draft : Draft} (found : entries.get? name = some draft) : draft.Distinct :=
  distinct.held _ (mem_of_lookup found)

/-! ## Altering one name -/

variable {entries after : Drafts} {name : String}

/-- **What altering a name does**: the names stay as they are, or this one comes to the end, and the
entries stay as they are, but for the one of that name. -/
theorem alter_cases {change : Option Draft → Option Draft}
    (altered : entries.alter name change = some after) :
    ∃ draft, change (entries.get? name) = some draft ∧
      (after.map Prod.fst = entries.map Prod.fst ∨
        name ∉ entries.map Prod.fst ∧ after.map Prod.fst = entries.map Prod.fst ++ [name]) ∧
      ∀ entry ∈ after, entry ∈ entries ∨ entry = (name, draft) := by
  induction entries generalizing after with
  | nil =>
    obtain ⟨draft, changed, rfl⟩ := Option.map_eq_some_iff.mp altered
    exact ⟨draft, changed, .inr ⟨by simp, rfl⟩, by simp⟩
  | cons entry rest ih =>
    rw [alter] at altered
    split at altered
    · next here =>
      obtain ⟨draft, changed, rfl⟩ := Option.map_eq_some_iff.mp altered
      refine ⟨draft, by rw [Drafts.get?, lookup_cons, if_pos here, changed],
        .inl (by simp [here]), ?_⟩
      intro other member
      rcases List.mem_cons.mp member with rfl | later
      · exact .inr rfl
      · exact .inl (List.mem_cons_of_mem _ later)
    · next elsewhere =>
      obtain ⟨later, changed, rfl⟩ := Option.map_eq_some_iff.mp altered
      obtain ⟨draft, found, names, kept⟩ := ih changed
      refine ⟨draft, by rwa [Drafts.get?, lookup_cons, if_neg elsewhere], ?_, ?_⟩
      · rcases names with same | ⟨missing, more⟩
        · exact .inl (by rw [List.map_cons, List.map_cons, same])
        · refine .inr ⟨?_, by rw [List.map_cons, List.map_cons, more, List.cons_append]⟩
          rw [List.map_cons, List.mem_cons, not_or]
          exact ⟨Ne.symm elsewhere, missing⟩
      · intro other member
        rcases List.mem_cons.mp member with rfl | there
        · exact .inl List.mem_cons_self
        · exact (kept other there).imp_left (List.mem_cons_of_mem _)

theorem Distinct.alter {change : Option Draft → Option Draft} (distinct : Distinct entries)
    (altered : entries.alter name change = some after)
    (proper : ∀ draft, change (entries.get? name) = some draft → draft.Distinct) :
    Distinct after := by
  obtain ⟨draft, changed, names, kept⟩ := alter_cases altered
  refine ⟨?_, fun entry member => ?_⟩
  · unfold DistinctNames
    rcases names with same | ⟨missing, more⟩
    · rw [same]
      exact distinct.names
    · rw [more, ← List.concat_eq_append]
      exact List.Nodup.concat missing distinct.names
  · rcases kept entry member with old | rfl
    · exact distinct.held entry old
    · exact proper draft changed

/-! ## Adding to a draft -/

/-- **Names lead to tables with distinct names**, and so changing the last of them keeps all the
names distinct. The induction is on the names. -/
theorem Distinct.within {manner here : Origin} {names : List String}
    {change : Origin → Drafts → Option Drafts}
    (keeps : ∀ origin {inner after : Drafts}, Distinct inner → change origin inner = some after →
      Distinct after)
    (distinct : Distinct entries)
    (changed : Drafts.within manner change here names entries = some after) : Distinct after := by
  induction names generalizing here entries after with
  | nil => exact keeps here distinct changed
  | cons name names ih =>
    -- Of the name: nothing stands there, a value, a table, or the tables of an array.
    refine distinct.alter changed fun draft made => ?_
    split at made
    · obtain ⟨inner, further, rfl⟩ := Option.map_eq_some_iff.mp made
      exact (ih distinct_nil further).table manner
    · exact absurd made (by simp)
    · next origin inner found =>
      split at made
      · exact absurd made (by simp)
      · obtain ⟨later, further, rfl⟩ := Option.map_eq_some_iff.mp made
        exact (ih (of_table (distinct.get? found)) further).table origin
    · next earlier last found =>
      obtain ⟨later, further, rfl⟩ := Option.map_eq_some_iff.mp made
      obtain ⟨before, proper⟩ := List.forall_mem_append.mp (of_tables (distinct.get? found))
      exact (ih (List.forall_mem_singleton.mp proper) further).tables before

theorem Distinct.add {value : Value} (distinct : Distinct entries) (proper : value.Distinct)
    (added : entries.add name value = some after) : Distinct after := by
  refine distinct.alter added fun draft made => ?_
  split at made
  · obtain rfl := Option.some.inj made
    exact .closed value proper
  · exact absurd made (by simp)

theorem Distinct.addKey {key : List String} {value : Value} (distinct : Distinct entries)
    (proper : value.Distinct) (added : entries.addKey key value = some after) :
    Distinct after := by
  unfold Drafts.addKey at added
  split at added
  · exact absurd added (by simp)
  · next name last =>
    refine distinct.within (fun origin inner after distinct changed => ?_) added
    split at changed
    · exact distinct.add proper changed
    · exact absurd changed (by simp)

theorem Distinct.addKeys {pairs : List (List String × Value)} (distinct : Distinct entries)
    (proper : ∀ pair ∈ pairs, pair.2.Distinct) (added : entries.addKeys pairs = some after) :
    Distinct after := by
  induction pairs generalizing entries with
  | nil =>
    obtain rfl := Option.some.inj added
    exact distinct
  | cons pair rest ih =>
    obtain ⟨next, first, others⟩ := Option.bind_eq_some_iff.mp added
    exact ih (distinct.addKey (proper pair List.mem_cons_self) first)
      (fun later member => proper later (List.mem_cons_of_mem _ member)) others

/-- A table that comes to the end under a name of its own. -/
theorem Distinct.erase_append (distinct : Distinct entries) {draft : Draft}
    (proper : draft.Distinct) : Distinct (entries.erase name ++ [(name, draft)]) := by
  have kept : (entries.erase name).Sublist entries := List.filter_sublist
  refine ⟨?_, fun entry member => ?_⟩
  · unfold DistinctNames
    rw [List.map_append, List.map_singleton, ← List.concat_eq_append]
    refine List.Nodup.concat ?_ (distinct.names.sublist (kept.map _))
    simp [erase]
  · rcases List.mem_append.mp member with old | new
    · exact distinct.held entry (kept.subset old)
    · obtain rfl := List.mem_singleton.mp new
      exact proper

theorem Distinct.addTable {pairs : List (List String × Value)} (distinct : Distinct entries)
    (proper : ∀ pair ∈ pairs, pair.2.Distinct)
    (added : entries.addTable name pairs = some after) : Distinct after := by
  obtain ⟨inner, filled, rfl⟩ := Option.map_eq_some_iff.mp added
  obtain ⟨start, begun, filled⟩ := Option.bind_eq_some_iff.mp filled
  refine distinct.erase_append (Distinct.table (Distinct.addKeys ?_ proper filled) .header)
  split at begun
  · obtain rfl := Option.some.inj begun
    exact distinct_nil
  · next found =>
    obtain rfl := Option.some.inj begun
    exact of_table (distinct.get? found)
  · exact absurd begun (by simp)

theorem Distinct.addElement {pairs : List (List String × Value)} (distinct : Distinct entries)
    (proper : ∀ pair ∈ pairs, pair.2.Distinct)
    (added : entries.addElement name pairs = some after) : Distinct after := by
  obtain ⟨inner, filled, altered⟩ := Option.bind_eq_some_iff.mp added
  have new := distinct_nil.addKeys proper filled
  refine distinct.alter altered fun draft made => ?_
  split at made
  · obtain rfl := Option.some.inj made
    exact new.tables (by simp)
  · next earlier last found =>
    obtain rfl := Option.some.inj made
    exact new.tables (of_tables (distinct.get? found))
  · exact absurd made (by simp)

/-! ## Finished tables -/

theorem close_eq_map (entries : Drafts) :
    close entries = entries.map fun entry => (entry.1, entry.2.close) := by
  induction entries with
  | nil => rfl
  | cons entry rest ih => rw [close, ih, List.map_cons]

theorem closeAll_eq_map (tables : List Drafts) :
    closeAll tables = tables.map fun entries => .table (close entries) := by
  induction tables with
  | nil => rfl
  | cons entries rest ih => rw [closeAll, ih, List.map_cons]

/-- Entries whose drafts are finished make a table. -/
theorem table_close {entries : Drafts} (names : DistinctNames entries)
    (proper : ∀ entry ∈ entries, entry.2.close.Distinct) :
    (Value.table (close entries)).Distinct := by
  rw [close_eq_map]
  refine .table _ ?_ fun entry member => ?_
  · unfold DistinctNames
    rw [List.map_map]
    exact names
  · obtain ⟨old, before, rfl⟩ := List.mem_map.mp member
    exact proper old before

end Drafts

/-- **A draft with distinct names becomes a value with distinct names.** -/
theorem Draft.Distinct.close {draft : Draft} (distinct : draft.Distinct) :
    draft.close.Distinct := by
  induction distinct with
  | closed value held => exact held
  | table origin entries names held ih => exact Drafts.table_close names ih
  | tables earlier last names held ih =>
    rw [Draft.close, Drafts.closeAll_eq_map]
    refine .array _ fun element member => ?_
    rw [← List.map_singleton (f := fun entries => Value.table (Drafts.close entries)),
      ← List.map_append] at member
    obtain ⟨entries, there, rfl⟩ := List.mem_map.mp member
    exact Drafts.table_close (names entries there) (ih entries there)

theorem Drafts.Distinct.close {entries : Drafts} (distinct : Distinct entries) :
    (Value.table (Drafts.close entries)).Distinct :=
  Drafts.table_close distinct.names fun entry member => (distinct.held entry member).close

end LowerComments.Toml
