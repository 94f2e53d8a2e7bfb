import LowerComments.Proofs.Toml.Names
import LowerComments.Settings.Decode

/-!
# Reading a table field by field

The entries of a table are read in the order of the document, and each of them changes the
settings. The order does not matter when the names are distinct: what becomes of one part of the
settings is decided by the entry of one name alone (`Governs.readEntries`), because each field
leaves the parts of the others as they are (`Field.Keeps`). A table is read without fault when
each field takes the value under its name, whatever stands under other names
(`exists_readEntries`).
-/

set_option autoImplicit false

namespace LowerComments.Settings

open Toml

variable {Part : Type} {part : Settings → Part} {fields : List Field} {settings next : Settings}

/-! ## Parts that are left alone -/

/-- The field leaves a part of the settings as it is, whatever value it is given. -/
def Field.Keeps (field : Field) (part : Settings → Part) : Prop :=
  ∀ settings value next, field.assign settings value = .ok next → part next = part settings

/-- What an entry does is what the field of its name does. -/
theorem readEntry_cases {entry : String × Value}
    (read : readEntry fields settings entry = .ok next) :
    (∃ field ∈ fields, field.name = entry.1 ∧ field.assign settings entry.2 = .ok next) ∨
      next = settings := by
  unfold readEntry at read
  split at read
  · next field found =>
    refine .inl ⟨field, List.mem_of_find?_eq_some found, ?_, read⟩
    simpa using List.find?_some found
  · exact .inr (Except.ok.inj read).symm

theorem readEntries_cons {entry : String × Value} {rest : Table} {last : Settings}
    (read : readEntries fields settings (entry :: rest) = .ok last) :
    ∃ next, readEntry fields settings entry = .ok next ∧
      readEntries fields next rest = .ok last := by
  unfold readEntries at read
  split at read
  · exact absurd read (by simp)
  · next next first => exact ⟨next, first, read⟩

section Keeping

variable (keeps : ∀ field ∈ fields, field.Keeps part)

include keeps

theorem part_readEntries {entries : Table} (read : readEntries fields settings entries = .ok next) :
    part next = part settings := by
  induction entries generalizing settings with
  | nil => rw [Except.ok.inj read]
  | cons entry rest ih =>
    obtain ⟨middle, first, others⟩ := readEntries_cons read
    refine (ih others).trans ?_
    rcases readEntry_cases first with ⟨field, member, -, assigned⟩ | rfl
    · exact keeps field member settings entry.2 middle assigned
    · rfl

theorem part_readElements {values : List Value}
    (read : readElements fields settings values = .ok next) : part next = part settings := by
  induction fields generalizing settings values with
  | nil => rw [Except.ok.inj read]
  | cons field fields ih =>
    cases values with
    | nil => rw [Except.ok.inj read]
    | cons value values =>
      unfold readElements at read
      obtain ⟨first, others⟩ := List.forall_mem_cons.mp keeps
      split at read
      · exact absurd read (by simp)
      · next middle assigned =>
        exact (ih others read).trans (first settings value middle assigned)

/-- A table leaves alone what its fields leave alone, however it is given. -/
theorem part_readFields {expected : String} {value : Value}
    (read : readFields expected fields settings value = .ok next) : part next = part settings := by
  unfold readFields at read
  split at read
  · exact part_readEntries keeps read
  · exact part_readElements keeps read
  · rw [Except.ok.inj read]
  · exact absurd read (by simp)

end Keeping

/-! ## The part that a name decides -/

/-- A part of the settings is what a value means for it, or stays as it was without a value. -/
def Settles (means : Value → Part → Prop) (before : Part) : Option Value → Part → Prop
  | none, after => after = before
  | some value, after => means value after

theorem Settles.imp {means means' : Value → Part → Prop} {before after : Part}
    {value? : Option Value} (settles : Settles means before value? after)
    (implies : ∀ value, value? = some value → means value after → means' value after) :
    Settles means' before value? after := by
  cases value? with
  | none => exact settles
  | some value => exact implies value rfl settles

theorem Settles.unique {means : Value → Part → Prop} {before after after' : Part}
    {value? : Option Value} (settles : Settles means before value? after)
    (settles' : Settles means before value? after')
    (single : ∀ value left right, means value left → means value right → left = right) :
    after = after' := by
  cases value? with
  | none => exact settles.trans settles'.symm
  | some value => exact single value after after' settles settles'

theorem exists_settles {means : Value → Part → Prop} {before : Part} {value? : Option Value}
    (meant : ∀ value, value? = some value → ∃ after, means value after) :
    ∃ after, Settles means before value? after := by
  cases value? with
  | none => exact ⟨before, rfl⟩
  | some value => exact meant value rfl

/-- The entry of one name, and no other, changes a part of the settings. -/
structure Governs (fields : List Field) (name : String) (part : Settings → Part)
    (means : Value → Part → Part → Prop) : Prop where
  own : ∀ {settings value next}, readEntry fields settings (name, value) = .ok next →
    means value (part settings) (part next)
  others : ∀ {settings entry next}, entry.1 ≠ name → readEntry fields settings entry = .ok next →
    part next = part settings

/-- The name of a field governs what the other fields leave alone. -/
theorem Governs.of_field {field : Field} {means : Value → Part → Part → Prop}
    (found : fields.find? (fun other => other.name = field.name) = some field)
    (own : ∀ settings value next, field.assign settings value = .ok next →
      means value (part settings) (part next))
    (others : ∀ other ∈ fields, other.name = field.name ∨ other.Keeps part) :
    Governs fields field.name part means where
  own {settings value next} read := by
    unfold readEntry at read
    simp only [found] at read
    exact own settings value next read
  others {settings entry next} elsewhere read := by
    rcases readEntry_cases read with ⟨other, member, named, assigned⟩ | rfl
    · have keeps := (others other member).resolve_left fun same => elsewhere (named ▸ same)
      exact keeps settings entry.2 next assigned
    · rfl

/-- **Reading a table settles a part by the value under its name**, wherever this entry stands. -/
theorem Governs.readEntries {name : String} {means : Value → Part → Part → Prop}
    (governs : Governs fields name part means) {entries : Table} (distinct : DistinctNames entries)
    (read : readEntries fields settings entries = .ok next) :
    Settles (fun value after => means value (part settings) after) (part settings)
      (entries.lookup name) (part next) := by
  induction entries generalizing settings with
  | nil => rw [Except.ok.inj read]; rfl
  | cons entry rest ih =>
    obtain ⟨middle, first, others⟩ := readEntries_cons read
    obtain ⟨apart, later⟩ := List.nodup_cons.mp distinct
    have rests := ih later others
    rw [lookup_cons]
    by_cases here : entry.1 = name
    -- No later entry has this name, and so the rest leaves the part as it is.
    · subst here
      rw [lookup_eq_none apart] at rests
      have kept : part next = part middle := rests
      have owns := governs.own first
      rwa [if_pos rfl, kept]
    · rw [if_neg here]
      rwa [governs.others here first] at rests

/-! ## Tables without fault -/

/-- A table is read to the end when each field takes the value under its name. -/
theorem exists_readEntries {entries : Table}
    (takes : ∀ field ∈ fields, ∀ value, (field.name, value) ∈ entries →
      ∀ settings, ∃ next, field.assign settings value = .ok next) (settings : Settings) :
    ∃ next, readEntries fields settings entries = .ok next := by
  induction entries generalizing settings with
  | nil => exact ⟨settings, rfl⟩
  | cons entry rest ih =>
    have later := ih fun field member value there =>
      takes field member value (List.mem_cons_of_mem _ there)
    have first : ∃ next, readEntry fields settings entry = .ok next := by
      unfold readEntry
      split
      · next field found =>
        have named : field.name = entry.1 := by simpa using List.find?_some found
        exact takes field (List.mem_of_find?_eq_some found) entry.2 (by simp [named]) settings
      · exact ⟨settings, rfl⟩
    obtain ⟨middle, first⟩ := first
    obtain ⟨next, others⟩ := later middle
    exact ⟨next, by simp only [readEntries, first, others]⟩

end LowerComments.Settings
