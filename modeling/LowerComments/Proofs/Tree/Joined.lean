import LowerComments.Proofs.Path.Order

/-!
# Entries behind the path of their directory

A path that leads to a directory goes on to each of the entries there when the name of the
entry is put behind it (`Tree.locate_join`). Following the longer path replaces the same links
as before, in the same order, and then takes one more step (`resolve_append`). How the
directory is spelled does not matter, and neither do slashes at the end of its path: they stay
in the directory, and a name takes their place.
-/

set_option autoImplicit false

namespace LowerComments

section Longer

variable {entryAt : Place → Option Entry} {directory place : Place} {mode : Nat} {isSealed : Bool}
  {components ending tail : List Path.Component}

/-- Components that stay in the directory make no difference in front of others. -/
theorem walk_still_append (still : ∀ component ∈ ending, component = .here) (followLast : Bool) :
    walk entryAt followLast directory (ending ++ tail) =
      walk entryAt followLast directory tail := by
  induction ending with
  | nil => rfl
  | cons component rest ih =>
    obtain ⟨rfl, later⟩ := List.forall_mem_cons.mp still
    exact ih later

/-- Components that stay in the directory lead nowhere else. -/
theorem walk_here (still : ∀ component ∈ ending, component = .here) (followLast : Bool) :
    walk entryAt followLast directory ending = .ok (.arrived directory) := by
  rw [← List.append_nil ending, walk_still_append still]
  rfl

/-- A walk that arrives in a directory goes on from there. -/
theorem walk_append (still : ∀ component ∈ ending, component = .here)
    (arrives : walk entryAt true directory (components ++ ending) = .ok (.arrived place))
    (there : entryAt place = some (.directory mode isSealed)) (followLast : Bool) :
    walk entryAt followLast directory (components ++ tail) =
      walk entryAt followLast place tail := by
  induction components generalizing directory with
  | nil =>
    rw [List.nil_append, walk_here still] at arrives
    obtain rfl := Stop.arrived.inj (Except.ok.inj arrives)
    rfl
  | cons component rest ih =>
    cases component with
    | here => exact ih arrives
    | up => exact ih arrives
    | name name =>
      rw [List.cons_append] at arrives ⊢
      obtain ⟨short, ⟨_, _, found, later⟩ | ⟨_, _, _, _, stops⟩ | ⟨_, ends, noDirectory, _⟩⟩ :=
        walk_name_cases arrives
      · rw [walk_directory short found]
        exact ih later
      · exact absurd stops (by simp)
      · obtain rfl := Stop.arrived.inj ends
        exact absurd there (noDirectory mode isSealed)

/-- A walk that stops at a link stops there on the way to something else, too. -/
theorem walk_append_link {holder : Place} {path : Path} {behind : List Path.Component}
    (still : ∀ component ∈ ending, component = .here)
    (stops : walk entryAt true directory (components ++ ending) = .ok (.link holder path behind))
    (more : tail ≠ []) (followLast : Bool) :
    ∃ rest, behind = rest ++ ending ∧
      walk entryAt followLast directory (components ++ tail) =
        .ok (.link holder path (rest ++ tail)) := by
  induction components generalizing directory with
  | nil =>
    rw [List.nil_append, walk_here still] at stops
    exact absurd stops (by simp)
  | cons component rest ih =>
    cases component with
    | here => exact ih stops
    | up => exact ih stops
    | name name =>
      rw [List.cons_append] at stops ⊢
      obtain ⟨short, ⟨_, _, found, later⟩ | ⟨_, _, link, _, same⟩ | ⟨_, ends, _⟩⟩ :=
        walk_name_cases stops
      · rw [walk_directory short found]
        exact ih later
      · obtain ⟨rfl, rfl, rfl⟩ := Stop.link.inj same
        exact ⟨rest, rfl, walk_link short link (by simp [more])⟩
      · exact absurd ends (by simp)

/-- **Components that lead to a directory lead on from there**, with as many links as are left to be
replaced. -/
theorem resolve_append (still : ∀ component ∈ ending, component = .here) {links : Nat}
    (leads : resolve entryAt true links directory (components ++ ending) = .ok place)
    (there : entryAt place = some (.directory mode isSealed)) (more : tail ≠ [])
    (followLast : Bool) :
    ∃ left, resolve entryAt followLast links directory (components ++ tail) =
      resolve entryAt followLast left place tail := by
  refine resolve_induction (motive := fun links directory whole =>
    ∀ components, whole = components ++ ending →
      ∃ left, resolve entryAt followLast links directory (components ++ tail) =
        resolve entryAt followLast left place tail)
    (fun links directory whole walked components same => ?_)
    (fun links directory whole holder path behind walked later components same => ?_)
    leads components rfl
  · subst same
    refine ⟨links, ?_⟩
    rw [resolve, resolve, walk_append still walked there]
  · subst same
    obtain ⟨rest, rfl, stops⟩ := walk_append_link still walked more followLast
    obtain ⟨left, reached⟩ := later (path.components ++ rest) (List.append_assoc ..).symm
    refine ⟨left, ?_⟩
    rw [resolve_link stops, ← List.append_assoc, reached]

end Longer

theorem Path.isAbsolute_join {directory : Path} (given : directory ≠ []) (name : Name) :
    (directory.join name).isAbsolute = directory.isAbsolute := by
  obtain ⟨first, rest, rfl⟩ := List.exists_cons_of_ne_nil given
  unfold Path.join
  split <;> rfl

namespace Tree

variable {tree : Tree} {directory : Path} {place : Place} {mode : Nat} {isSealed : Bool}
  {name : Name}

/-- A path that can be followed is not empty. -/
theorem ne_nil_of_sound {path : Path} (sound : path.fault? = none) : path ≠ [] := by
  rintro rfl
  exact absurd sound (by decide)

/-- The path of an entry is refused before it is followed only when it is too long. -/
theorem fault?_join (sound : directory.fault? = none) (proper : Path.IsName name)
    (fits : (directory.join name).length < pathLimit) :
    (directory.join name).fault? = none := by
  unfold Path.fault? at sound ⊢
  have noNul : 0 ∉ directory := fun nul => by simp [nul] at sound
  have clean : 0 ∉ directory.join name := by
    unfold Path.join
    split
    · simp [noNul, proper.noNul]
    · simp [noNul, proper.noNul, Path.slash]
  have longer : directory.join name ≠ [] := by
    unfold Path.join
    split
    · simp [proper.nonempty]
    · simp
  rw [if_neg clean, if_neg longer, if_neg (Nat.not_le.mpr fits)]

/-- **The path of a directory with the name of an entry behind it leads to that entry**, unless
that is a link to be followed. -/
theorem locate_join (found : tree.find directory = .ok (place, .directory mode isSealed))
    (proper : Path.IsName name) (short : name.length ≤ maximalName)
    (fits : (directory.join name).length < pathLimit) (followLast : Bool)
    (noLink : followLast = true →
      ∀ number path, tree.entryAt (name :: place) ≠ some (.link number path)) :
    tree.locate followLast (directory.join name) = .ok (name :: place) := by
  obtain ⟨located, there⟩ := find_eq_ok_iff.mp found
  unfold locate at located
  split at located
  · exact absurd located (by simp)
  · next sound =>
    split at located
    · next reached leads =>
      obtain rfl := Except.ok.inj located
      obtain ⟨front, ending, still, whole, joined⟩ := Path.components_join directory proper
      rw [whole] at leads
      obtain ⟨left, same⟩ :=
        resolve_append still leads there (List.cons_ne_nil (.name name) []) followLast
      have start : tree.startOf (directory.join name) = tree.startOf directory := by
        unfold startOf
        rw [Path.isAbsolute_join (ne_nil_of_sound sound)]
      have last : walk tree.entryAt followLast reached [.name name] =
          .ok (.arrived (name :: reached)) := by
        refine walk_last short fun number path link => ?_
        cases followLast with
        | false => rfl
        | true => exact absurd link (noLink rfl number path)
      rw [locate, fault?_join sound proper fits, start, joined, same, resolve, last]
    · exact absurd located (by simp)

end Tree

end LowerComments
