import LowerComments.Proofs.Tree.Paths
import LowerComments.Tree.Content
import Mathlib.Tactic.ByContra

/-!
# Trees that agree along a path

Two trees may differ at some places and a path may lead through others. The path leads to the
same place in both when the trees agree there and at every entry from which one goes on while
following it (`Tree.locate_eq_of_agree`), and then it reads as the same in both
(`Tree.reading?_eq_of_agree`).

`GoesOn` says when following components leads on from an entry: a directory is entered with
components left, or a link is replaced. It looks at the components of links as well as at
those of the path, since a link may lead through an entry that the path does not name. One goes
on from nothing but directories and links (`GoesOn.entry`).

Agreement is about what paths and reading can tell: the kind of an entry, the path of a link and
the file under a name. The permission bits of a directory are not among it, nor whether it takes
new entries.
-/

set_option autoImplicit false

namespace LowerComments

/-! ## Going on from an entry -/

/-- Following the components from a directory, one comes to the entry at `spot` and goes on from
there. -/
inductive GoesOn (entryAt : Place → Option Entry) (spot : Place) :
    Place → List Path.Component → Prop where
  /-- The next name is the one of the entry, and more components follow or it is a link. -/
  | here {directory : Place} {name : Name} {rest : List Path.Component}
    (same : name :: directory = spot)
    (leads : rest ≠ [] ∨ ∃ number path, entryAt spot = some (.link number path)) :
    GoesOn entryAt spot directory (.name name :: rest)
  | stay {directory : Place} {rest : List Path.Component}
    (later : GoesOn entryAt spot directory rest) : GoesOn entryAt spot directory (.here :: rest)
  | up {directory : Place} {rest : List Path.Component}
    (later : GoesOn entryAt spot directory.tail rest) :
    GoesOn entryAt spot directory (.up :: rest)
  /-- The next name is that of a directory, and one comes to the entry from there. -/
  | enter {directory : Place} {name : Name} {rest : List Path.Component} {mode : Nat}
    {isSealed : Bool} (there : entryAt (name :: directory) = some (.directory mode isSealed))
    (later : GoesOn entryAt spot (name :: directory) rest) :
    GoesOn entryAt spot directory (.name name :: rest)
  /-- The next name is that of a link, and one comes to the entry by way of its path. -/
  | follow {directory : Place} {name : Name} {rest : List Path.Component} {number : Nat}
    {path : Path} (there : entryAt (name :: directory) = some (.link number path))
    (later : GoesOn entryAt spot (if path.isAbsolute then [] else directory)
      (path.components ++ rest)) : GoesOn entryAt spot directory (.name name :: rest)

section Resolving

variable {entryAt : Place → Option Entry} {links : Nat} {directory place spot : Place}
  {components : List Path.Component}

/-- Where one comes to behind a link, one comes to on the way to the link. -/
theorem GoesOn.of_link {holder : Place} {path : Path} {rest : List Path.Component}
    (walked : walk entryAt true directory components = .ok (.link holder path rest))
    (later : GoesOn entryAt spot (if path.isAbsolute then [] else holder)
      (path.components ++ rest)) : GoesOn entryAt spot directory components := by
  induction components generalizing directory with
  | nil => exact absurd walked (by simp [walk])
  | cons component components ih =>
    cases component with
    | here => exact .stay (ih walked)
    | up => exact .up (ih walked)
    | name name =>
      obtain ⟨_, ⟨_, _, there, further⟩ | ⟨_, _, there, _, same⟩ | ⟨_, ends, _⟩⟩ :=
        walk_name_cases walked
      · exact .enter there (ih further)
      · obtain ⟨rfl, rfl, rfl⟩ := Stop.link.inj same
        exact .follow there later
      · exact absurd ends (by simp)

/-- **What following components does at a name**: it goes on in a directory, or behind a link, or it
ends there. -/
theorem resolve_name_cases {name : Name} {rest : List Path.Component}
    (resolved : resolve entryAt true links directory (.name name :: rest) = .ok place) :
    (∃ mode isSealed, entryAt (name :: directory) = some (.directory mode isSealed) ∧
        resolve entryAt true links (name :: directory) rest = .ok place) ∨
      (∃ number path fewer, entryAt (name :: directory) = some (.link number path) ∧
        resolve entryAt true fewer (if path.isAbsolute then [] else directory)
          (path.components ++ rest) = .ok place) ∨
      rest = [] ∧ ∀ number path, entryAt (name :: directory) ≠ some (.link number path) := by
  cases walked : walk entryAt true directory (.name name :: rest) with
  | error error => simp [resolve, walked] at resolved
  | ok stop =>
    obtain ⟨_, ⟨mode, isSealed, there, later⟩ | ⟨number, path, there, _, rfl⟩ |
        ⟨last, _, _, unlinked⟩⟩ := walk_name_cases walked
    · refine .inl ⟨mode, isSealed, there, ?_⟩
      rwa [resolve, later, ← walked, ← resolve]
    · cases links with
      | zero => simp [resolve, walked] at resolved
      | succ fewer =>
        rw [resolve_link walked] at resolved
        exact .inr (.inl ⟨number, path, fewer, there, resolved⟩)
    · refine .inr (.inr ⟨last, fun number path link => ?_⟩)
      exact absurd (unlinked number path link) (by simp)

/-- **One goes on from directories and links alone.** Components that lead to a place come to
nothing else on the way. -/
theorem GoesOn.entry (goesOn : GoesOn entryAt spot directory components)
    (resolved : resolve entryAt true links directory components = .ok place) :
    (∃ mode isSealed, entryAt spot = some (.directory mode isSealed)) ∨
      ∃ number path, entryAt spot = some (.link number path) := by
  induction goesOn generalizing links with
  | here same leads =>
    subst same
    rcases leads with more | link
    · obtain ⟨mode, isSealed, there, _⟩ | ⟨number, path, _, there, _⟩ | ⟨last, _⟩ :=
        resolve_name_cases resolved
      · exact .inl ⟨mode, isSealed, there⟩
      · exact .inr ⟨number, path, there⟩
      · exact absurd last more
    · exact .inr link
  | stay later ih => exact ih (by rwa [resolve, walk, ← resolve] at resolved)
  | up later ih => exact ih (by rwa [resolve, walk, ← resolve] at resolved)
  | enter there later ih =>
    obtain ⟨_, _, _, behind⟩ | ⟨_, _, _, link, _⟩ | ⟨rfl, _⟩ := resolve_name_cases resolved
    · exact ih behind
    · exact absurd (there.symm.trans link) (by simp)
    · cases later
  | follow there later ih =>
    obtain ⟨_, _, directory, _⟩ | ⟨_, _, _, link, behind⟩ | ⟨_, unlinked⟩ :=
      resolve_name_cases resolved
    · exact absurd (there.symm.trans directory) (by simp)
    · obtain ⟨rfl, rfl⟩ := Entry.link.inj (Option.some.inj (there.symm.trans link))
      exact ih behind
    · exact absurd there (unlinked _ _)

end Resolving

/-! ## Agreement -/

namespace Tree

/-- The trees agree at a place: the kind of the entry, the path of a link and the file under a name
are the same. -/
def AgreeAt (tree other : Tree) (place : Place) : Prop :=
  (tree.entryAt place).map Entry.way = (other.entryAt place).map Entry.way ∧
    tree.file? place = other.file? place

variable {tree other : Tree} {place spot : Place} {path : Path}

theorem AgreeAt.refl (tree : Tree) (place : Place) : tree.AgreeAt tree place :=
  ⟨rfl, rfl⟩

theorem AgreeAt.symm (agree : tree.AgreeAt other place) : other.AgreeAt tree place :=
  ⟨agree.1.symm, agree.2.symm⟩

theorem AgreeAt.trans {third : Tree} (agree : tree.AgreeAt other place)
    (more : other.AgreeAt third place) : tree.AgreeAt third place :=
  ⟨agree.1.trans more.1, agree.2.trans more.2⟩

/-- Trees with the same entry at a place agree there if its number holds the same. -/
theorem AgreeAt.of_entryAt (entry : other.entryAt place = tree.entryAt place)
    (held : ∀ number, tree.entryAt place = some (.file number) →
      other.file number = tree.file number) : other.AgreeAt tree place :=
  ⟨congrArg _ entry, file?_congr entry held⟩

theorem AgreeAt.none (agree : tree.AgreeAt other place) (missing : tree.entryAt place = none) :
    other.entryAt place = none := by
  have ways := agree.1
  rw [missing] at ways
  exact Option.map_eq_none_iff.mp ways.symm

theorem AgreeAt.directory (agree : tree.AgreeAt other place) {mode : Nat} {isSealed : Bool}
    (there : tree.entryAt place = some (.directory mode isSealed)) :
    ∃ mode isSealed, other.entryAt place = some (.directory mode isSealed) := by
  have ways := agree.1
  rw [there] at ways
  obtain ⟨entry, found, way⟩ := Option.map_eq_some_iff.mp ways.symm
  cases entry with
  | directory mode isSealed => exact ⟨mode, isSealed, found⟩
  | link number path => exact absurd way (by simp [Entry.way])
  | file number => exact absurd way (by simp [Entry.way])

theorem AgreeAt.link (agree : tree.AgreeAt other place) {number : Nat}
    (there : tree.entryAt place = some (.link number path)) :
    ∃ number, other.entryAt place = some (.link number path) := by
  have ways := agree.1
  rw [there] at ways
  obtain ⟨entry, found, way⟩ := Option.map_eq_some_iff.mp ways.symm
  cases entry with
  | directory mode isSealed => exact absurd way (by simp [Entry.way])
  | link number path' =>
    obtain ⟨-, rfl⟩ := Entry.link.inj way
    exact ⟨number, found⟩
  | file number => exact absurd way (by simp [Entry.way])

theorem AgreeAt.file (agree : tree.AgreeAt other place) {number : Nat}
    (there : tree.entryAt place = some (.file number)) :
    ∃ number', other.entryAt place = some (.file number') ∧
      other.file number' = tree.file number :=
  file?_eq_some_iff.mp (agree.2.symm.trans (file?_of_entryAt there))

/-- A walk that goes on from no entry at which the trees differ, and that ends at none, is the same
in both. -/
theorem walk_eq_of_agree {directory : Place} {components : List Path.Component} {stop : Stop}
    (walked : walk tree.entryAt true directory components = .ok stop)
    (clear : ∀ spot, ¬ tree.AgreeAt other spot →
      stop ≠ .arrived spot ∧ ¬ GoesOn tree.entryAt spot directory components) :
    walk other.entryAt true directory components = .ok stop := by
  induction components generalizing directory with
  | nil => exact walked
  | cons component rest ih =>
    cases component with
    | here => exact ih walked fun spot differ => (clear spot differ).imp_right (mt .stay)
    | up => exact ih walked fun spot differ => (clear spot differ).imp_right (mt .up)
    | name name =>
      obtain ⟨short, ⟨mode, isSealed, there, later⟩ | ⟨number, path, there, _, rfl⟩ |
        ⟨rfl, rfl, _, unlinked⟩⟩ := walk_name_cases walked
      · have agree : tree.AgreeAt other (name :: directory) := by
          by_contra differ
          obtain ⟨elsewhere, off⟩ := clear _ differ
          by_cases more : rest = []
          · subst more
            exact elsewhere (Except.ok.inj later).symm
          · exact off (.here rfl (.inl more))
        obtain ⟨_, _, there'⟩ := agree.directory there
        rw [walk_directory short there']
        exact ih later fun spot differ => (clear spot differ).imp_right (mt (.enter there))
      · have agree : tree.AgreeAt other (name :: directory) := by
          by_contra differ
          exact (clear _ differ).2 (.here rfl (.inr ⟨number, path, there⟩))
        obtain ⟨_, there'⟩ := agree.link there
        exact walk_link short there' (by simp)
      · have agree : tree.AgreeAt other (name :: directory) := by
          by_contra differ
          exact (clear _ differ).1 rfl
        refine walk_last short fun number path link => ?_
        obtain ⟨number', link'⟩ := agree.symm.link link
        exact unlinked number' path link'

theorem resolve_eq_of_agree {links : Nat} {directory : Place} {components : List Path.Component}
    (resolved : resolve tree.entryAt true links directory components = .ok place)
    (clear : ∀ spot, ¬ tree.AgreeAt other spot →
      place ≠ spot ∧ ¬ GoesOn tree.entryAt spot directory components) :
    resolve other.entryAt true links directory components = .ok place := by
  refine resolve_induction (motive := fun links directory components =>
    (∀ spot, ¬ tree.AgreeAt other spot →
      place ≠ spot ∧ ¬ GoesOn tree.entryAt spot directory components) →
    resolve other.entryAt true links directory components = .ok place)
    (fun links directory components walked clear => ?_)
    (fun links directory components holder path rest walked behind clear => ?_) resolved clear
  · refine resolve_arrived (walk_eq_of_agree walked fun spot differ => ?_)
    exact (clear spot differ).imp_left (mt Stop.arrived.inj)
  · rw [resolve_link (walk_eq_of_agree walked fun spot differ =>
      ⟨Stop.noConfusion, (clear spot differ).2⟩)]
    exact behind fun spot differ => (clear spot differ).imp_right (mt (GoesOn.of_link walked))

/-- Following a path, one comes to the entry at a place and goes on from there. -/
def GoesOnFrom (tree : Tree) (path : Path) (spot : Place) : Prop :=
  GoesOn tree.entryAt spot (tree.startOf path) path.components

/-- A path that leads to a place goes on from directories and links alone. -/
theorem GoesOnFrom.entry (goesOn : tree.GoesOnFrom path spot)
    (located : tree.locate true path = .ok place) :
    (∃ mode isSealed, tree.entryAt spot = some (.directory mode isSealed)) ∨
      ∃ number path, tree.entryAt spot = some (.link number path) := by
  unfold locate at located
  split at located
  · exact absurd located (by simp)
  · split at located
    · next resolved => exact GoesOn.entry goesOn resolved
    · exact absurd located (by simp)

/-- **A path leads to the same place** in a tree that agrees with the first one there and at all
entries from which one goes on. -/
theorem locate_eq_of_agree (workingDirectory : other.workingDirectory = tree.workingDirectory)
    (located : tree.locate true path = .ok place)
    (clear : ∀ spot, ¬ tree.AgreeAt other spot → place ≠ spot ∧ ¬ tree.GoesOnFrom path spot) :
    other.locate true path = .ok place := by
  have start : other.startOf path = tree.startOf path := by
    unfold startOf
    rw [workingDirectory]
  unfold locate at located ⊢
  split at located
  · exact absurd located (by simp)
  · split at located
    · next reached resolved =>
      obtain rfl := Except.ok.inj located
      rw [start, resolve_eq_of_agree resolved clear]
    · exact absurd located (by simp)

/-! ## Reading -/

/-- What a path reads as: nothing when it does not lead to an entry, and otherwise what reading it
answers. -/
def reading? (tree : Tree) (path : Path) : Option (Except IoFault Bytes) :=
  if tree.holds path then some (tree.read path) else none

theorem holds_eq_isSome : tree.holds path = (tree.reading? path).isSome := by
  cases held : tree.holds path <;> simp [reading?, held]

theorem holds_iff : tree.holds path = true ↔
    ∃ place entry, tree.locate true path = .ok place ∧ tree.entryAt place = some entry := by
  rw [holds]
  cases found : tree.find path with
  | error fault =>
    refine iff_of_false (by simp) fun ⟨place, entry, located, there⟩ => ?_
    rw [find_eq_ok_iff.mpr ⟨located, there⟩] at found
    exact absurd found (by simp)
  | ok reached => exact iff_of_true rfl ⟨reached.1, reached.2, find_eq_ok_iff.mp found⟩

/-- A path that leads to the same place in trees that agree there reads as the same. -/
theorem reading?_eq_of_agreeAt (located : tree.locate true path = .ok place)
    (located' : other.locate true path = .ok place) (agree : tree.AgreeAt other place) :
    other.reading? path = tree.reading? path := by
  have found {entry : Entry} (there : tree.entryAt place = some entry) :
      tree.find path = .ok (place, entry) := find_eq_ok_iff.mpr ⟨located, there⟩
  have found' {entry : Entry} (there : other.entryAt place = some entry) :
      other.find path = .ok (place, entry) := find_eq_ok_iff.mpr ⟨located', there⟩
  cases there : tree.entryAt place with
  | none =>
    simp [reading?, holds, find, located, located', there, agree.none there]
  | some entry =>
    cases entry with
    | directory mode isSealed =>
      obtain ⟨_, _, there'⟩ := agree.directory there
      simp [reading?, holds, read, found there, found' there']
    | link number target =>
      obtain ⟨_, there'⟩ := agree.link there
      simp [reading?, holds, read, found there, found' there']
    | file number =>
      obtain ⟨number', there', same⟩ := agree.file there
      simp [reading?, holds, read, found there, found' there', same]

/-- What leads to an entry in one tree reads as the same in the other. -/
theorem reading?_eq_of_holds (workingDirectory : other.workingDirectory = tree.workingDirectory)
    (held : tree.holds path = true)
    (clear : ∀ place, tree.locate true path = .ok place →
      ∀ spot, ¬ tree.AgreeAt other spot → place ≠ spot ∧ ¬ tree.GoesOnFrom path spot) :
    other.reading? path = tree.reading? path := by
  obtain ⟨place, entry, located, there⟩ := holds_iff.mp held
  have agree : tree.AgreeAt other place := by
    by_contra differ
    exact (clear place located place differ).1 rfl
  exact reading?_eq_of_agreeAt located
    (locate_eq_of_agree workingDirectory located (clear place located)) agree

/-- **A path reads as the same in both trees** when in either of them it leads to nothing, or it
goes on from no entry at which the trees differ and ends at none. -/
theorem reading?_eq_of_agree (workingDirectory : other.workingDirectory = tree.workingDirectory)
    (clear : tree.holds path = true → ∀ place, tree.locate true path = .ok place →
      ∀ spot, ¬ tree.AgreeAt other spot → place ≠ spot ∧ ¬ tree.GoesOnFrom path spot)
    (clear' : other.holds path = true → ∀ place, other.locate true path = .ok place →
      ∀ spot, ¬ other.AgreeAt tree spot → place ≠ spot ∧ ¬ other.GoesOnFrom path spot) :
    other.reading? path = tree.reading? path := by
  by_cases held : tree.holds path = true
  · exact reading?_eq_of_holds workingDirectory held (clear held)
  · by_cases held' : other.holds path = true
    · exact (reading?_eq_of_holds workingDirectory.symm held' (clear' held')).symm
    · rw [reading?, reading?, if_neg held, if_neg held']

end Tree

end LowerComments
