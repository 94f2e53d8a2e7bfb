import LowerComments.Proofs.Tree.Joined
import Mathlib.Data.List.TakeWhile

/-!
# Paths as a report shows them

A report shows a path without the `.` that it begins with. What is taken away is a front of the
path and nothing else: that `.`, and the separators and single dots behind it up to the first
component that leads out of the directory (`Path.shown_split`). Such a front is idle. It only adds
components that stay in the directory (`Path.Idle.components`), and these make no difference to a
walk (`walk_still_append`). So what is shown has the same parts (`Path.parts_shown`) and leads to
the same place in every tree (`Tree.resolve_shown`).

This holds of paths that have something to lead on to, and the path of an entry has: the name of
the entry (`Path.leadsOn_join`). Of a path such as `./.` nothing would be left.

One difference remains. A path can be too long to be followed while what is shown of it is not,
when thousands of single dots are taken away. Then the path leads nowhere, and this is the only
case in which what is shown is followed with another outcome (`Tree.locate_shown`). It does
happen, also with a directory that can be listed (`Path.locate_shown_dots`).
-/

set_option autoImplicit false

namespace LowerComments

namespace Path

/-- Separators, and single dots with a separator behind each. -/
inductive Idle : Path → Prop
  | nil : Idle []
  | slash {rest : Path} : Idle rest → Idle (slash :: rest)
  | here {rest : Path} : Idle rest → Idle (dot :: slash :: rest)

/-- The path has a component that leads out of the directory. -/
def LeadsOn (path : Path) : Prop :=
  ∃ component ∈ path.components, component ≠ .here

/-- The first component of the path leads out of the directory. -/
def LeadsOnAtOnce (path : Path) : Prop :=
  ∃ component rest, path.components = component :: rest ∧ component ≠ .here

/-! ## Components at the beginning -/

theorem components_append (left right : Path) :
    components (left ++ slash :: right) = components left ++ components right := by
  rw [components, pieces_append, List.map_append]
  rfl

theorem components_slash (rest : Path) : components (slash :: rest) = .here :: components rest :=
  components_append [] rest

theorem components_here (rest : Path) :
    components (dot :: slash :: rest) = .here :: components rest :=
  components_append [dot] rest

/-- What is idle adds components that stay in the directory. -/
theorem Idle.components {dropped : Path} (idle : Idle dropped) (path : Path) :
    ∃ still, (∀ component ∈ still, component = .here) ∧
      (dropped ++ path).components = still ++ path.components := by
  induction idle with
  | nil => exact ⟨[], by simp, rfl⟩
  | slash _ ih =>
    obtain ⟨still, stays, added⟩ := ih
    refine ⟨.here :: still, List.forall_mem_cons.mpr ⟨rfl, stays⟩, ?_⟩
    rw [List.cons_append, components_slash, added, List.cons_append]
  | here _ ih =>
    obtain ⟨still, stays, added⟩ := ih
    refine ⟨.here :: still, List.forall_mem_cons.mpr ⟨rfl, stays⟩, ?_⟩
    rw [List.cons_append, List.cons_append, components_here, added, List.cons_append]

theorem Idle.noNul {dropped : Path} (idle : Idle dropped) : 0 ∉ dropped := by
  induction idle with
  | nil => simp
  | slash _ ih => simpa [Path.slash] using ih
  | here _ ih => simpa [Path.slash, dot] using ih

/-- A byte that is no separator belongs to the first piece, in front of what follows it there. -/
theorem pieces_cons {byte : UInt8} (own : byte ≠ slash) (rest : Path) :
    ∃ piece others, pieces (byte :: rest) = (byte :: piece) :: others ∧
      (piece = [] ↔ rest = [] ∨ rest.head? = some slash) := by
  rcases rest with _ | ⟨next, rest⟩
  · exact ⟨[], [], by simp [pieces, own], by simp⟩
  · by_cases slashed : next = slash
    · exact ⟨[], pieces rest, by simp [pieces, own, slashed], by simp [slashed]⟩
    · cases cut : pieces rest with
      | nil => exact ⟨[next], [], by simp [pieces, own, slashed, cut], by simp [slashed]⟩
      | cons piece others =>
        exact ⟨next :: piece, others, by simp [pieces, own, slashed, cut], by simp [slashed]⟩

/-- A path starts with the component `.` when that is its first piece. -/
theorem startsHere_iff {path : Path} : path.startsHere = true ↔ path.pieces.head? = some [dot] := by
  cases path with
  | nil => simp [startsHere, pieces]
  | cons byte rest =>
    by_cases slashed : byte = slash
    · simp [slashed, startsHere, pieces, slash, dot]
    · obtain ⟨piece, others, cut, nothing⟩ := pieces_cons slashed rest
      simp [cut, startsHere, nothing]

theorem ofBytes_eq_here_iff {bytes : Bytes} :
    Component.ofBytes bytes = .here ↔ bytes = [] ∨ bytes = [dot] := by
  unfold Component.ofBytes
  split
  · next stays => exact iff_of_true rfl stays
  · next leads => exact iff_of_false (by split <;> simp) leads

/-- A path leads on at once when it is relative and starts with something other than `.`. -/
theorem leadsOnAtOnce_iff {path : Path} :
    path.LeadsOnAtOnce ↔ path ≠ [] ∧ path.isAbsolute = false ∧ path.startsHere = false := by
  unfold LeadsOnAtOnce
  cases path with
  | nil => simp [components, pieces, Component.ofBytes]
  | cons byte rest =>
    by_cases slashed : byte = slash
    · simp [slashed, components_slash, isAbsolute]
    · obtain ⟨piece, others, cut, nothing⟩ := pieces_cons slashed rest
      have here : Component.ofBytes (byte :: piece) = .here ↔
          byte = dot ∧ (rest = [] ∨ rest.head? = some slash) := by
        rw [← nothing, ofBytes_eq_here_iff]
        simp
      simp [components, cut, startsHere, isAbsolute, slashed, here]

/-! ## What is taken away -/

theorem LeadsOn.ne_nil {path : Path} (leads : path.LeadsOn) : path ≠ [] := by
  rintro rfl
  obtain ⟨component, member, other⟩ := leads
  exact other (List.mem_singleton.mp member)

theorem LeadsOn.of_cons {path rest : Path} (leads : path.LeadsOn)
    (stays : path.components = .here :: rest.components) : rest.LeadsOn := by
  obtain ⟨component, member, other⟩ := leads
  rw [stays] at member
  exact ⟨component, List.mem_of_ne_of_mem other member, other⟩

/-- **What `dropHere` takes away is idle, and what it leaves leads on at once**, provided that
there is something to lead on to. -/
theorem dropHere_split {path : Path} (leads : path.LeadsOn) :
    ∃ dropped, Idle dropped ∧ path = dropped ++ dropHere path ∧ (dropHere path).LeadsOnAtOnce := by
  fun_induction dropHere path with
  | case1 => exact absurd rfl leads.ne_nil
  | case2 byte idle =>
    obtain ⟨component, member, other⟩ := leads
    have stays : ∀ component ∈ components [byte], component = .here := by
      rcases idle with rfl | rfl <;> decide
    exact absurd (stays component member) other
  | case3 byte own =>
    obtain ⟨unslashed, undotted⟩ := not_or.mp own
    refine ⟨[], .nil, rfl, leadsOnAtOnce_iff.mpr ?_⟩
    simp [isAbsolute, startsHere, unslashed, undotted]
  | case4 next rest ih =>
    obtain ⟨dropped, idle, whole, atOnce⟩ := ih (leads.of_cons (components_slash _))
    exact ⟨slash :: dropped, .slash idle, congrArg (slash :: ·) whole, atOnce⟩
  | case5 byte next rest unslashed here ih =>
    obtain ⟨rfl, rfl⟩ := here
    obtain ⟨dropped, idle, whole, atOnce⟩ := ih (leads.of_cons (components_here _))
    exact ⟨dot :: slash :: dropped, .here idle, congrArg (dot :: slash :: ·) whole, atOnce⟩
  | case6 byte next rest unslashed own =>
    refine ⟨[], .nil, rfl, leadsOnAtOnce_iff.mpr ?_⟩
    simpa [isAbsolute, startsHere, unslashed] using own

theorem dropHere_slash (rest : Path) : dropHere (slash :: rest) = dropHere rest := by
  cases rest <;> simp [dropHere]

/-- What is idle is taken away. -/
theorem Idle.dropHere {dropped : Path} (idle : Idle dropped) (path : Path) :
    Path.dropHere (dropped ++ path) = Path.dropHere path := by
  induction idle with
  | nil => rfl
  | slash _ ih => exact (dropHere_slash _).trans ih
  | here _ ih =>
    rw [List.cons_append, List.cons_append, Path.dropHere, if_neg (by decide), if_pos ⟨rfl, rfl⟩]
    exact ih

/-- The leading `.` is taken away like the single dots behind it. -/
theorem shown_of_startsHere {path : Path} (here : path.startsHere = true) :
    path.shown = dropHere path := by
  rw [shown, if_pos here]
  rcases path with _ | ⟨first, _ | ⟨second, rest⟩⟩
  · rfl
  · obtain rfl : first = dot := by simpa [startsHere] using here
    rfl
  · obtain ⟨rfl, rfl⟩ : first = dot ∧ second = slash := by simpa [startsHere] using here
    exact dropHere_slash rest

theorem shown_of_not_startsHere {path : Path} (elsewhere : path.startsHere = false) :
    path.shown = path := by
  rw [shown, elsewhere, if_neg Bool.false_ne_true]

section Shown

variable {path : Path}

/-- What is shown of a path that starts with `.` is the rest behind something idle. -/
theorem shown_split (leads : path.LeadsOn) (here : path.startsHere = true) :
    ∃ dropped, Idle dropped ∧ path = dropped ++ path.shown ∧ path.shown.LeadsOnAtOnce := by
  rw [shown_of_startsHere here]
  exact dropHere_split leads

/-- What is shown of a path is the path itself or the rest of it, behind something idle. -/
theorem exists_idle (leads : path.LeadsOn) :
    ∃ dropped, Idle dropped ∧ path = dropped ++ path.shown := by
  cases here : path.startsHere with
  | true =>
    obtain ⟨dropped, idle, whole, -⟩ := shown_split leads here
    exact ⟨dropped, idle, whole⟩
  | false => exact ⟨[], .nil, (shown_of_not_startsHere here).symm⟩

theorem startsHere_shown (leads : path.LeadsOn) : path.shown.startsHere = false := by
  cases here : path.startsHere with
  | true =>
    obtain ⟨_, _, _, atOnce⟩ := shown_split leads here
    exact (leadsOnAtOnce_iff.mp atOnce).2.2
  | false => rwa [shown_of_not_startsHere here]

theorem shown_ne_nil (leads : path.LeadsOn) : path.shown ≠ [] := by
  cases here : path.startsHere with
  | true =>
    obtain ⟨_, _, _, atOnce⟩ := shown_split leads here
    exact (leadsOnAtOnce_iff.mp atOnce).1
  | false => exact (shown_of_not_startsHere here).symm ▸ leads.ne_nil

theorem isAbsolute_of_startsHere (here : path.startsHere = true) : path.isAbsolute = false := by
  rcases path with _ | ⟨first, rest⟩
  · rfl
  · obtain ⟨rfl, -⟩ : first = dot ∧ _ := by simpa [startsHere] using here
    rfl

theorem isAbsolute_shown (leads : path.LeadsOn) : path.shown.isAbsolute = path.isAbsolute := by
  cases here : path.startsHere with
  | true =>
    obtain ⟨_, _, _, atOnce⟩ := shown_split leads here
    rw [(leadsOnAtOnce_iff.mp atOnce).2.1, isAbsolute_of_startsHere here]
  | false => rw [shown_of_not_startsHere here]

/-- No part behind what a path begins with is a `.`. -/
theorem dropWhile_here_filterMap (components : List Component) :
    (components.filterMap Component.part?).dropWhile (· = .here) =
      components.filterMap Component.part? := by
  refine List.dropWhile_eq_self_iff.mpr fun filled => ?_
  obtain ⟨component, -, part⟩ := List.mem_filterMap.mp (List.getElem_mem filled)
  cases component with
  | here => simp [Component.part?] at part
  | up => simp [← Option.some.inj part]
  | name own => simp [← Option.some.inj part]

/-- **What is shown has the parts of the path but for a leading `.`.** -/
theorem parts_shown (leads : path.LeadsOn) :
    path.shown.parts = path.parts.dropWhile (· = .here) := by
  cases here : path.startsHere with
  | false =>
    rw [shown_of_not_startsHere here, parts, beginning, here]
    cases path.isAbsolute with
    | false => exact (dropWhile_here_filterMap _).symm
    | true => rfl
  | true =>
    obtain ⟨dropped, idle, whole, atOnce⟩ := shown_split leads here
    obtain ⟨-, relative, elsewhere⟩ := leadsOnAtOnce_iff.mp atOnce
    obtain ⟨still, stays, added⟩ := idle.components path.shown
    have nothing : still.filterMap Component.part? = [] :=
      List.filterMap_eq_nil_iff.mpr fun component member => by rw [stays component member]; rfl
    have behind : path.components.filterMap Component.part? =
        path.shown.components.filterMap Component.part? := by
      rw [whole, added, ← whole, List.filterMap_append, nothing, List.nil_append]
    calc path.shown.parts
        = path.shown.components.filterMap Component.part? := by
          rw [parts, beginning, relative, elsewhere]
          rfl
      _ = (Part.here :: path.shown.components.filterMap Component.part?).dropWhile (· = .here) := by
          rw [List.dropWhile_cons_of_pos (by simp), dropWhile_here_filterMap]
      _ = path.parts.dropWhile (· = .here) := by
          rw [parts, beginning, isAbsolute_of_startsHere here, here, behind]
          rfl

/-- A path is shown as a path that can be followed, unless it is itself too long for that. -/
theorem fault?_shown (leads : path.LeadsOn) :
    path.fault? = some (.system .nameTooLong) ∨ path.shown.fault? = path.fault? := by
  obtain ⟨dropped, idle, whole⟩ := exists_idle leads
  have nul : 0 ∈ path.shown ↔ 0 ∈ path := by
    conv_rhs => rw [whole, List.mem_append]
    simp [idle.noNul]
  have shorter : path.shown.length ≤ path.length := by
    conv_rhs => rw [whole, List.length_append]
    omega
  unfold fault?
  by_cases broken : 0 ∈ path
  · simp [broken, nul]
  · by_cases long : pathLimit ≤ path.length
    · simp [broken, leads.ne_nil, long]
    · have fits : ¬ pathLimit ≤ path.shown.length := by omega
      simp [broken, nul, leads.ne_nil, shown_ne_nil leads, long, fits]

end Shown

end Path

/-! ## Steps that stay -/

theorem resolve_still_append {entryAt : Place → Option Entry} {still rest : List Path.Component}
    (stays : ∀ component ∈ still, component = .here) (followLast : Bool) (links : Nat)
    (directory : Place) :
    resolve entryAt followLast links directory (still ++ rest) =
      resolve entryAt followLast links directory rest := by
  unfold resolve
  rw [walk_still_append stays]

namespace Tree

variable {path : Path}

/-- **What is shown leads where the path leads.** -/
theorem resolve_shown (tree : Tree) (leads : path.LeadsOn) (followLast : Bool) (links : Nat) :
    resolve tree.entryAt followLast links (tree.startOf path.shown) path.shown.components =
      resolve tree.entryAt followLast links (tree.startOf path) path.components := by
  obtain ⟨dropped, idle, whole⟩ := Path.exists_idle leads
  obtain ⟨still, stays, added⟩ := idle.components path.shown
  rw [← whole] at added
  rw [startOf, startOf, Path.isAbsolute_shown leads, added, resolve_still_append stays]

theorem locate_shown (tree : Tree) (leads : path.LeadsOn) (followLast : Bool) :
    path.fault? = some (.system .nameTooLong) ∨
      tree.locate followLast path.shown = tree.locate followLast path := by
  refine (Path.fault?_shown leads).imp_right fun same => ?_
  rw [locate, locate, same, resolve_shown tree leads]

/-- A path that is idle leads nowhere else. -/
theorem locate_of_idle (tree : Tree) (idle : Path.Idle path) (filled : path ≠ [])
    (relative : path.isAbsolute = false) (short : path.length < pathLimit) (followLast : Bool) :
    tree.locate followLast path = .ok tree.workingDirectory := by
  have sound : path.fault? = none := by
    rw [Path.fault?, if_neg idle.noNul, if_neg filled, if_neg (Nat.not_le.mpr short)]
  obtain ⟨still, stays, added⟩ := idle.components []
  have here : ∀ component ∈ path.components, component = .here := by
    rw [List.append_nil] at added
    rw [added]
    exact List.forall_mem_append.mpr ⟨stays, by decide⟩
  have start : tree.startOf path = tree.workingDirectory := by
    rw [startOf, relative, if_neg Bool.false_ne_true]
  rw [locate, sound, start]
  unfold resolve
  simp only [walk_here here]

end Tree

/-! ## Entries of a directory -/

namespace Path

/-- What leads on does so with one more byte in front, which starts a component or becomes part of
one. -/
theorem LeadsOn.cons {rest : Path} (leads : rest.LeadsOn) (byte : UInt8) :
    LeadsOn (byte :: rest) := by
  obtain ⟨component, member, other⟩ := leads
  by_cases slashed : byte = slash
  · exact ⟨component, by rw [slashed, components_slash]; exact List.mem_cons_of_mem _ member, other⟩
  · cases cut : pieces rest with
    | nil => exact absurd cut (pieces_ne_nil rest)
    | cons piece others =>
      have longer : pieces (byte :: rest) = (byte :: piece) :: others := by
        simp [pieces, slashed, cut]
      rw [components, cut, List.map_cons, List.mem_cons] at member
      rcases member with rfl | behind
      · refine ⟨Component.ofBytes (byte :: piece), by simp [components, longer], ?_⟩
        rw [ne_eq, ofBytes_eq_here_iff] at other ⊢
        rintro (nothing | single)
        · exact absurd nothing (List.cons_ne_nil byte piece)
        · exact other (.inl (List.cons.inj single).2)
      · refine ⟨component, ?_, other⟩
        rw [components, longer]
        exact List.mem_cons_of_mem _ behind

theorem LeadsOn.behind {path : Path} (leads : path.LeadsOn) (front : Bytes) :
    LeadsOn (front ++ path) := by
  induction front with
  | nil => exact leads
  | cons byte front ih => exact ih.cons byte

theorem LeadsOn.join {name : Name} (leads : LeadsOn name) (root : Path) :
    (root.join name).LeadsOn := by
  rw [Path.join]
  split
  · exact leads.behind root
  · exact (leads.cons slash).behind root

theorem leadsOn_join (root : Path) {name : Name} (proper : IsName name) :
    (root.join name).LeadsOn := by
  have leads : LeadsOn name := by
    refine ⟨.name name, ?_, by simp⟩
    rw [components, pieces_of_not_mem proper.whole, List.map_singleton, ofBytes_of_isName proper]
    exact List.mem_singleton_self _
  exact leads.join root

/-- **A file of a directory is shown under a path that leads to it.** The path of an entry is shown
without the `.` that it begins with, and with the same parts otherwise. One that begins in another
way is shown as it is; of one that begins so, what is left out are separators and single dots, and
what is shown starts where the path first leads on. What is shown is not empty, does not begin with
a `.` and is shown as it is. In every tree it leads where the path leads, unless the path itself is
too long to be followed. -/
theorem shown_join (root : Path) {name : Name} (proper : IsName name) :
    let path := root.join name
    path.shown.parts = path.parts.dropWhile (· = .here) ∧
      (path.pieces.head? ≠ some [dot] → path.shown = path) ∧
      (path.pieces.head? = some [dot] →
        ∃ dropped, Idle dropped ∧ path = dropped ++ path.shown ∧ path.shown.LeadsOnAtOnce) ∧
      path.shown ≠ [] ∧ path.shown.pieces.head? ≠ some [dot] ∧ path.shown.shown = path.shown ∧
      ∀ (tree : Tree) (followLast : Bool),
        (∀ links, resolve tree.entryAt followLast links (tree.startOf path.shown)
            path.shown.components =
          resolve tree.entryAt followLast links (tree.startOf path) path.components) ∧
        (path.fault? = some (.system .nameTooLong) ∨
          tree.locate followLast path.shown = tree.locate followLast path) := by
  intro path
  have leads : path.LeadsOn := leadsOn_join root proper
  have elsewhere : path.shown.startsHere = false := startsHere_shown leads
  simp only [ne_eq, ← startsHere_iff]
  refine ⟨parts_shown leads, fun own => ?_, shown_split leads, shown_ne_nil leads, ?_,
    shown_of_not_startsHere elsewhere, fun tree followLast =>
      ⟨tree.resolve_shown leads followLast, tree.locate_shown leads followLast⟩⟩
  · exact shown_of_not_startsHere (Bool.eq_false_iff.mpr own)
  · exact Bool.eq_false_iff.mp elsewhere

/-- Separators and single dots in a row, in front of a directory. -/
theorem shown_join_idle :
    let root := Bytes.ofString ".//./x"
    let name := Bytes.ofString "a.lua"
    let short := Bytes.ofString "x/a.lua"
    IsName name ∧ Path.shown (Path.join root name) = short ∧ Path.shown short = short ∧
      ∀ tree : Tree, tree.locate true short = tree.locate true (Bytes.ofString ".//./x/a.lua") := by
  intro root name short
  have proper : IsName name := by decide +kernel
  have joined : Path.join root name = Bytes.ofString ".//./x/a.lua" := by decide +kernel
  have shows : Path.shown (Path.join root name) = short := by decide +kernel
  have fits : Path.fault? (Path.join root name) ≠ some (.system .nameTooLong) := by decide +kernel
  obtain ⟨_, _, _, _, _, again, leads⟩ := shown_join root proper
  rw [shows] at again
  refine ⟨proper, shows, again, fun tree => ?_⟩
  have same := (leads tree true).2.resolve_left fits
  rwa [shows, joined] at same

/-! ### Paths that are too long -/

/-- So many single dots, with a separator behind each. -/
def dots (count : Nat) : Path := (List.replicate count [dot, slash]).flatten

theorem idle_dots (count : Nat) : Idle (dots count) := by
  induction count with
  | zero => exact .nil
  | succ count ih => exact .here ih

theorem length_dots (count : Nat) : (dots count).length = 2 * count := by
  induction count with
  | zero => rfl
  | succ count ih =>
    have longer : dots (count + 1) = dot :: slash :: dots count := rfl
    rw [longer, List.length_cons, List.length_cons, ih]
    omega

theorem join_dots (count : Nat) (name : Name) :
    (dots (count + 1)).join name = dots (count + 1) ++ name := by
  have last : (dots (count + 1)).getLast? = some slash := by
    rw [dots, List.replicate_succ', List.flatten_append]
    simp
  rw [join, if_pos (.inr last)]

/-- **The path of an entry can be too long to be followed while what is shown of it is not.** The
directory can be listed here under the path that it is given, and only with a name behind it the
path becomes too long. It then leads nowhere, and what is shown leads to the file. -/
theorem locate_shown_dots :
    let tree := ({} : Tree).addFile [Bytes.ofString "a.lua"] { content := Bytes.ofString "-- A" }
    let root := dots 2046
    let name := Bytes.ofString "a.lua"
    let path := Path.join root name
    IsName name ∧ tree.list root = .ok [name] ∧
      tree.locate true path = .error (.system .nameTooLong) ∧
      tree.locate true path.shown = .ok [name] := by
  intro tree root name path
  have joined : path = dots 2046 ++ name := join_dots 2045 name
  have shows : path.shown = name := by
    have here : path.startsHere = true := by
      rw [joined]
      rfl
    have kept : Path.dropHere name = name := by decide +kernel
    rw [shown_of_startsHere here, joined, (idle_dots 2046).dropHere, kept]
  have long : path.fault? = some (.system .nameTooLong) := by
    have clean : 0 ∉ path := by
      rw [joined, List.mem_append, not_or]
      exact ⟨(idle_dots 2046).noNul, by decide +kernel⟩
    have beyond : pathLimit ≤ path.length := by
      rw [joined, List.length_append, length_dots]
      decide +kernel
    have filled : path ≠ [] := fun nothing => by simp [nothing, pathLimit] at beyond
    rw [fault?, if_neg clean, if_neg filled, if_pos beyond]
  refine ⟨by decide +kernel, ?_, by rw [Tree.locate, long], ?_⟩
  · have short : root.length < pathLimit := by
      rw [length_dots]
      decide
    have filled : root ≠ [] := List.ne_nil_of_length_pos (by rw [length_dots]; decide)
    have found : tree.find root = .ok ([], .directory 0o755 false) :=
      Tree.find_eq_ok_iff.mpr
        ⟨tree.locate_of_idle (idle_dots 2046) filled rfl short true, by decide +kernel⟩
    rw [Tree.list, found]
    decide +kernel
  · rw [shows]
    decide +kernel

end Path

end LowerComments
