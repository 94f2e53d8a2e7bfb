import LowerComments.Proofs.Toml.Drafts
import LowerComments.Toml.Document

/-!
# The names in a document are distinct

Every table that is read from a text has one entry for each of its names, however it is written,
and so have the tables and arrays within it (`Document.distinct_of_read?`). Values in brackets
and braces are finished when they are scanned, and the sections are put together afterwards.
Neither step lets a name be taken twice.
-/

set_option autoImplicit false

namespace LowerComments.Toml

/-! ## What a scanner finds -/

section Scanning

variable {Found Other : Type} {Fits : Found → Prop} {Suits : Other → Prop}

/-- Whatever the scanner finds is like this. -/
def Finds (Fits : Found → Prop) (scanned : Scanned Found) : Prop :=
  ∀ found rest, scanned = some (found, rest) → Fits found

theorem finds_none : Finds Fits none := by
  intro found rest same
  exact absurd same (by simp)

theorem finds_some {found : Found} {rest : List Char} (fits : Fits found) :
    Finds Fits (some (found, rest)) := by
  intro other behind same
  obtain ⟨rfl, rfl⟩ := Prod.mk.inj (Option.some.inj same)
  exact fits

theorem Finds.map {scanned : Scanned Found} {change : Found × List Char → Other × List Char}
    (finds : Finds Fits scanned)
    (suits : ∀ found rest, Fits found → Suits (change (found, rest)).1) :
    Finds Suits (scanned.map change) := by
  intro other behind same
  obtain ⟨⟨found, rest⟩, scans, changed⟩ := Option.map_eq_some_iff.mp same
  have suitable := suits found rest (finds found rest scans)
  rwa [changed] at suitable

theorem Finds.bind {scanned : Scanned Found} {next : Found × List Char → Scanned Other}
    (finds : Finds Fits scanned)
    (suits : ∀ found rest, Fits found → Finds Suits (next (found, rest))) :
    Finds Suits (scanned.bind next) := by
  intro other behind same
  obtain ⟨⟨found, rest⟩, scans, further⟩ := Option.bind_eq_some_iff.mp same
  exact suits found rest (finds found rest scans) other behind further

/-- A scanner finds something. -/
theorem finds_any (scanned : Scanned Found) : Finds (fun _ => True) scanned :=
  fun _ _ _ => trivial

end Scanning

/-! ## Numbers and other scalars -/

theorem finds_integer? (number : Int) (rest : List Char) :
    Finds Value.Distinct (integer? number rest) := by
  unfold integer?
  split
  · exact finds_some (.integer number)
  · exact finds_none

theorem finds_float? (negative : Bool) (digits : List Char) (exponent : Int) (rest : List Char) :
    Finds Value.Distinct (float? negative digits exponent rest) := by
  unfold float?
  split
  · exact finds_none
  · exact finds_some (.float _)

theorem finds_decimalRest? (negative : Bool) (whole text : List Char) :
    Finds Value.Distinct (decimalRest? negative whole text) := by
  unfold decimalRest?
  split
  · split
    · exact finds_none
    · dsimp only
      split
      · split
        · exact (finds_any _).bind fun _ _ _ => finds_float? _ _ _ _
        · exact finds_float? _ _ _ _
      · exact finds_float? _ _ _ _
  · split
    · exact (finds_any _).bind fun _ _ _ => finds_float? _ _ _ _
    · exact finds_integer? _ _
  · exact finds_integer? _ _

theorem finds_number? (text : List Char) : Finds Value.Distinct (number? text) := by
  have based (base : Nat) (text : List Char) : Finds Value.Distinct (basedInteger? base text) :=
    (finds_any _).bind fun _ _ _ => finds_integer? _ _
  unfold number?
  split
  · exact based 16 _
  · exact based 8 _
  · exact based 2 _
  · dsimp only
    split
    · next found named =>
      unfold namedNumber? at named
      split at named
      · rw [← named]
        exact finds_some (.float _)
      · rw [← named]
        exact finds_some (.float _)
      · exact absurd named (by simp)
    · exact (finds_any _).bind fun _ _ _ => finds_decimalRest? _ _ _

theorem finds_scalar? (text : List Char) : Finds Value.Distinct (scalar? text) := by
  unfold scalar?
  split
  · exact (finds_any _).map fun found _ _ => .string found
  · exact (finds_any _).map fun found _ _ => .string found
  · split
    · exact finds_some (.boolean true)
    · exact finds_some (.boolean false)
    · split
      · exact finds_some .moment
      · exact finds_none
      · exact finds_number? _

/-! ## Arrays and tables -/

section Elements

variable {element : List Char → Scanned Value}
  (proper : ∀ text, Finds Value.Distinct (element text))

include proper

theorem finds_elements? (rounds : Nat) (text : List Char) :
    Finds (fun values => ∀ value ∈ values, Value.Distinct value)
      (elements? element rounds text) := by
  induction rounds generalizing text with
  | zero => exact finds_none
  | succ rounds ih =>
    unfold elements?
    split
    · exact finds_some (by simp)
    · refine (proper _).bind fun value rest distinct => ?_
      dsimp only
      split
      · exact (ih _).map fun values rest others => List.forall_mem_cons.mpr ⟨distinct, others⟩
      · exact finds_some (by simpa using distinct)
      · exact finds_none

theorem finds_pair? (text : List Char) :
    Finds (fun pair => Value.Distinct pair.2) (pair? element text) := by
  refine (finds_any _).bind fun key rest _ => ?_
  dsimp only
  split
  · exact (proper _).map fun value rest distinct => distinct
  · exact finds_none

theorem finds_pairs? (rounds : Nat) (text : List Char) :
    Finds (fun pairs => ∀ pair ∈ pairs, Value.Distinct pair.2) (pairs? element rounds text) := by
  induction rounds generalizing text with
  | zero => exact finds_none
  | succ rounds ih =>
    refine (finds_pair? proper text).bind fun pair rest distinct => ?_
    dsimp only
    split
    · exact (ih _).map fun pairs rest others => List.forall_mem_cons.mpr ⟨distinct, others⟩
    · exact finds_some (by simpa using distinct)
    · exact finds_none

theorem finds_array? (text : List Char) : Finds Value.Distinct (array? element text) :=
  (finds_elements? proper _ text).map fun values _ distinct => .array values distinct

theorem finds_bracedTable? (text : List Char) :
    Finds Value.Distinct (bracedTable? element text) := by
  unfold bracedTable?
  split
  · exact finds_some (.table [] List.nodup_nil (by simp))
  · refine (finds_pairs? proper _ text).bind fun pairs rest distinct value behind same => ?_
    obtain ⟨entries, added, same⟩ := Option.map_eq_some_iff.mp same
    obtain ⟨rfl, rfl⟩ := Prod.mk.inj same
    exact (Drafts.distinct_nil.addKeys distinct added).close

end Elements

/-- **The names are distinct in each table of a value that is scanned.** The induction is on the
levels that may still be nested. -/
theorem finds_value? (levels : Nat) (text : List Char) :
    Finds Value.Distinct (value? levels text) := by
  induction levels generalizing text with
  | zero => exact finds_scalar? text
  | succ levels ih =>
    cases text with
    | nil => exact finds_none
    | cons letter rest =>
      unfold value?
      split
      · exact finds_array? ih rest
      · split
        · exact finds_bracedTable? ih rest
        · exact finds_scalar? _

/-! ## Documents -/

namespace Document

/-- The names are distinct in each value of a line. -/
def Line.Distinct : Line → Prop
  | .pair given => given.2.Distinct
  | .header _ _ => True

theorem finds_line? (text : List Char) : Finds Line.Distinct (line? text) := by
  have start : Finds Line.Distinct (lineStart? text) := by
    have header (closing : List Char) (isElement : Bool) (text : List Char) :
        Finds Line.Distinct (header? closing isElement text) := by
      refine (finds_any _).bind fun path rest _ line behind same => ?_
      obtain ⟨_, _, same⟩ := Option.map_eq_some_iff.mp same
      obtain ⟨rfl, rfl⟩ := Prod.mk.inj same
      exact trivial
    unfold lineStart?
    split
    · exact header _ _ _
    · exact header _ _ _
    · exact (finds_pair? (finds_value? nestingLimit) text).map fun pair rest distinct => distinct
  refine start.bind fun line rest distinct other behind same => ?_
  obtain ⟨_, _, same⟩ := Option.map_eq_some_iff.mp same
  obtain ⟨rfl, rfl⟩ := Prod.mk.inj same
  exact distinct

theorem distinct_of_lines? {rounds : Nat} {text : List Char} {lines : List Line}
    (found : lines? rounds text = some lines) : ∀ line ∈ lines, line.Distinct := by
  induction rounds generalizing text lines with
  | zero =>
    unfold lines? at found
    split at found
    · obtain rfl := Option.some.inj found
      simp
    · exact absurd found (by simp)
  | succ rounds ih =>
    unfold lines? at found
    split at found
    · obtain rfl := Option.some.inj found
      simp
    · split at found
      · exact ih found
      · obtain ⟨⟨line, rest⟩, first, found⟩ := Option.bind_eq_some_iff.mp found
        obtain ⟨others, later, rfl⟩ := Option.map_eq_some_iff.mp found
        exact List.forall_mem_cons.mpr ⟨finds_line? _ line rest first, ih later⟩

/-- The names are distinct in each value of a document. -/
structure Distinct (document : Document) : Prop where
  pairs : ∀ pair ∈ document.pairs, pair.2.Distinct
  sections : ∀ part ∈ document.sections, ∀ pair ∈ part.pairs, pair.2.Distinct

theorem distinct_ofLines {lines : List Line} (distinct : ∀ line ∈ lines, line.Distinct) :
    (ofLines lines).Distinct := by
  induction lines with
  | nil => exact ⟨by simp [ofLines], by simp [ofLines]⟩
  | cons line rest ih =>
    obtain ⟨here, later⟩ := List.forall_mem_cons.mp distinct
    obtain ⟨pairs, sections⟩ := ih later
    cases line with
    | pair pair => exact ⟨List.forall_mem_cons.mpr ⟨here, pairs⟩, sections⟩
    | header path isElement =>
      exact ⟨by simp [ofLines, push], List.forall_mem_cons.mpr ⟨pairs, sections⟩⟩

theorem distinct_addSection {entries after : Drafts} {part : Section} (distinct : entries.Distinct)
    (proper : ∀ pair ∈ part.pairs, pair.2.Distinct) (added : addSection entries part = some after) :
    after.Distinct := by
  unfold addSection at added
  split at added
  · exact absurd added (by simp)
  · refine distinct.within (fun origin inner after distinct changed => ?_) added
    split at changed
    · exact distinct.addElement proper changed
    · exact distinct.addTable proper changed

theorem distinct_foldlM {sections : List Section} {entries after : Drafts}
    (distinct : entries.Distinct)
    (proper : ∀ part ∈ sections, ∀ pair ∈ part.pairs, pair.2.Distinct)
    (added : sections.foldlM addSection entries = some after) : after.Distinct := by
  induction sections generalizing entries with
  | nil =>
    obtain rfl := Option.some.inj added
    exact distinct
  | cons part rest ih =>
    obtain ⟨here, later⟩ := List.forall_mem_cons.mp proper
    rw [List.foldlM_cons] at added
    obtain ⟨next, first, others⟩ := Option.bind_eq_some_iff.mp added
    exact ih (distinct_addSection distinct here first) later others

/-- **The names are distinct in each table of a document.** -/
theorem distinct_of_read? {text : List Char} {table : Table} (read : read? text = some table) :
    (Value.table table).Distinct := by
  obtain ⟨lines, scanned, built⟩ := Option.bind_eq_some_iff.mp read
  obtain ⟨pairs, sections⟩ := distinct_ofLines (distinct_of_lines? scanned)
  obtain ⟨start, begun, built⟩ := Option.bind_eq_some_iff.mp built
  obtain ⟨entries, added, same⟩ := Option.bind_eq_some_iff.mp built
  obtain rfl := Option.some.inj same
  exact (distinct_foldlM (Drafts.distinct_nil.addKeys pairs begun) sections added).close

end Document

end LowerComments.Toml
