import LowerComments.Proofs.Discovery

/-!
# The order of paths

Paths are not compared byte by byte. A path has parts, and it comes before another when its
parts do in the order of dictionaries (`Path.le`). The parts leave out what makes no
difference: slashes that are repeated or stand at the end, and every `.` but one that a path
begins with (`Path.parts`).

Putting a name behind a directory adds that name as the last part, in whatever way the
directory is spelled (`Path.parts_join`). Two entries of one directory are therefore ordered
as their names are (`Path.le_join`). The names have to be such as a directory can hold
(`Path.IsName`): `a/b` would be two parts and `.` none.
-/

set_option autoImplicit false

namespace LowerComments.Path

/-- A name that an entry of a directory can have. -/
structure IsName (name : Name) : Prop where
  nonempty : name ≠ []
  whole : slash ∉ name
  noNul : 0 ∉ name
  notHere : name ≠ [dot]
  notUp : name ≠ [dot, dot]

instance (name : Name) : Decidable (IsName name) :=
  decidable_of_iff (name ≠ [] ∧ slash ∉ name ∧ 0 ∉ name ∧ name ≠ [dot] ∧ name ≠ [dot, dot])
    ⟨fun ⟨nonempty, whole, noNul, notHere, notUp⟩ => ⟨nonempty, whole, noNul, notHere, notUp⟩,
      fun proper => ⟨proper.nonempty, proper.whole, proper.noNul, proper.notHere, proper.notUp⟩⟩

/-! ## Behind a directory -/

theorem pieces_ne_nil (path : Path) : pieces path ≠ [] := by
  cases path with
  | nil => exact List.cons_ne_nil _ _
  | cons byte rest =>
    rw [pieces]
    split
    · exact List.cons_ne_nil _ _
    · split <;> exact List.cons_ne_nil _ _

/-- A path is cut at each slash. -/
theorem pieces_append (left right : Path) :
    pieces (left ++ slash :: right) = pieces left ++ pieces right := by
  induction left with
  | nil => simp [pieces]
  | cons byte rest ih =>
    rw [List.cons_append, pieces, pieces, ih]
    split
    · rfl
    · cases cut : pieces rest with
      | nil => exact absurd cut (pieces_ne_nil rest)
      | cons piece others => rfl

theorem pieces_of_not_mem {path : Path} (whole : slash ∉ path) : pieces path = [path] := by
  induction path with
  | nil => rfl
  | cons byte rest ih =>
    obtain ⟨here, later⟩ := not_or.mp (List.mem_cons.not.mp whole)
    rw [pieces, if_neg (Ne.symm here), ih later]

theorem ofBytes_of_isName {name : Name} (proper : IsName name) :
    Component.ofBytes name = .name name := by
  rw [Component.ofBytes, if_neg (not_or.mpr ⟨proper.nonempty, proper.notHere⟩),
    if_neg proper.notUp]

/-- **A name behind a directory is one more component.** A slash at the end of the directory is
what separates the two, and not a component any more. -/
theorem components_join (directory : Path) {name : Name} (proper : IsName name) :
    ∃ front ending, (∀ component ∈ ending, component = .here) ∧
      directory.components = front ++ ending ∧
      (directory.join name).components = front ++ [.name name] := by
  have last : Path.components name = [.name name] := by
    rw [components, pieces_of_not_mem proper.whole, List.map_singleton, ofBytes_of_isName proper]
  unfold join
  split
  · next bare =>
    rcases bare with rfl | slashed
    · exact ⟨[], [.here], by simp, rfl, last⟩
    · obtain ⟨front, rfl⟩ := List.getLast?_eq_some_iff.mp slashed
      refine ⟨Path.components front, [.here], by simp, ?_, ?_⟩
      · rw [components, pieces_append, List.map_append]
        rfl
      · rw [List.append_assoc, List.singleton_append, components, pieces_append, List.map_append,
          ← components, ← components, last]
  · refine ⟨directory.components, [], by simp, (List.append_nil _).symm, ?_⟩
    rw [components, pieces_append, List.map_append, ← components, ← components, last]

/-! ## Parts -/

/-- A part of a path, for the order of paths. -/
inductive Part where
  | root
  | here
  | up
  | name (name : Name)
  deriving DecidableEq, Repr

/-- The kinds of parts in their order. -/
def Part.rank : Part → Nat
  | .root => 0
  | .here => 1
  | .up => 2
  | .name _ => 3

/-- The part does not come after the other. -/
def Part.le : Part → Part → Bool
  | .name left, .name right => Bytes.le left right
  | left, right => left.rank ≤ right.rank

/-- The part that a component is, unless it makes no difference. -/
def Component.part? : Component → Option Part
  | .here => none
  | .up => some .up
  | .name own => some (.name own)

/-- What a path begins with, before its names. -/
def beginning (path : Path) : List Part :=
  if path.isAbsolute then [.root] else if path.startsHere then [.here] else []

/-- The parts of a path. -/
def parts (path : Path) : List Part :=
  path.beginning ++ path.components.filterMap Component.part?

/-- The parts do not come after the others in the order of dictionaries. -/
def partsLe : List Part → List Part → Bool
  | [], _ => true
  | _ :: _, [] => false
  | left :: lefts, right :: rights =>
    if left = right then partsLe lefts rights else left.le right

/-- The path does not come after the other. -/
protected def le (left right : Path) : Bool :=
  partsLe left.parts right.parts

/-- A name does not change what its directory begins with. -/
theorem beginning_join (directory : Path) {name : Name} (proper : IsName name) :
    (directory.join name).beginning = directory.beginning := by
  rcases directory with _ | ⟨byte, _ | ⟨next, rest⟩⟩
  · have own : Path.join [] name = name := rfl
    obtain ⟨first, behind, rfl⟩ := List.exists_cons_of_ne_nil proper.nonempty
    have relative : first ≠ slash := by
      rintro rfl
      exact proper.whole List.mem_cons_self
    have noHere : ¬ (first = dot ∧ (behind = [] ∨ behind.head? = some slash)) := by
      rintro ⟨rfl, rfl | slashed⟩
      · exact proper.notHere rfl
      · exact proper.whole (List.mem_cons_of_mem _ (List.mem_of_head? slashed))
    simp [own, beginning, isAbsolute, startsHere, relative, noHere]
  · by_cases absolute : byte = slash
    · simp [join, beginning, isAbsolute, absolute]
    · simp [join, beginning, isAbsolute, startsHere, absolute]
  · have same : ∃ more, Path.join (byte :: next :: rest) name = byte :: next :: (rest ++ more) := by
      unfold join
      split
      · exact ⟨name, rfl⟩
      · exact ⟨slash :: name, rfl⟩
    obtain ⟨more, joined⟩ := same
    simp [joined, beginning, isAbsolute, startsHere]

/-- **A name behind a directory is its last part.** -/
theorem parts_join (directory : Path) {name : Name} (proper : IsName name) :
    (directory.join name).parts = directory.parts ++ [.name name] := by
  obtain ⟨front, ending, still, whole, joined⟩ := components_join directory proper
  have nothing : ending.filterMap Component.part? = [] :=
    List.filterMap_eq_nil_iff.mpr fun component member => by rw [still component member]; rfl
  rw [parts, parts, beginning_join directory proper, whole, joined, List.filterMap_append,
    List.filterMap_append, nothing, List.append_nil, List.append_assoc]
  rfl

theorem partsLe_append (front lefts rights : List Part) :
    partsLe (front ++ lefts) (front ++ rights) = partsLe lefts rights := by
  induction front with
  | nil => rfl
  | cons part front ih => rw [List.cons_append, List.cons_append, partsLe, if_pos rfl, ih]

/-- **The entries of a directory are in the order of their names**, as whole paths. -/
theorem le_join (directory : Path) {left right : Name} (properLeft : IsName left)
    (properRight : IsName right) :
    Path.le (directory.join left) (directory.join right) = Bytes.le left right := by
  rw [Path.le, parts_join directory properLeft, parts_join directory properRight,
    partsLe_append, partsLe]
  split
  · next same =>
    obtain rfl := Part.name.inj same
    exact (Bytes.le_iff.mpr (List.le_refl left)).symm
  · rfl

end LowerComments.Path
