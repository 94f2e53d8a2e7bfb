import LowerComments.Proofs.Tree.Replacement
import LowerComments.Proofs.Tree.Sight

/-!
# A replacement that stops anywhere

The steps of a replacement may be refused at any point, for reasons in the tree or
outside it, and the bytes may reach the temporary file in any number of parts, so that
a write which breaks off between two bytes is one whose next part is refused. Up to
the renaming the tree is the one from before with perhaps a temporary file beside the
others (`Beside`), and taking that file away gives the tree from before. The renaming
is one step, and behind it the file at the place found is the new one, whole and with
the permission bits of the old one (`Exchanged`).

`perform_front` says this of every beginning of the steps. What the replacement answers,
and what it leaves behind once the temporary file is removed, follows from it.
-/

set_option autoImplicit false

namespace LowerComments.Tree

/-- The tree from before, apart from a temporary file that may stand at one place. -/
structure Beside (before : Tree) (temporary : Place) (during : Tree) : Prop where
  workingDirectory : during.workingDirectory = before.workingDirectory
  see? : ∀ place, place ≠ temporary → during.see? place = before.see? place
  sameFile : ∀ left right, left ≠ temporary → right ≠ temporary →
    (during.sameFile left right ↔ before.sameFile left right)
  removed : Unchanged before (during.removeEntry temporary)

/-- The tree from before with a new file of these bytes at one place. It has the permission bits
of the old one there and no other name, so that the other names of the old one keep the old
bytes. -/
structure Exchanged (before : Tree) (target : Place) (content : Bytes) (after : Tree) : Prop where
  workingDirectory : after.workingDirectory = before.workingDirectory
  renewed : after.see? target = some (.file { content := content, mode := before.fileMode target })
  others : ∀ place, place ≠ target → after.see? place = before.see? place
  sameFile : ∀ left right, left ≠ target →
    (after.sameFile left right ↔ right ≠ target ∧ before.sameFile left right)

variable {before during after : Tree} {target temporary : Place} {held : File}

/-! ## Before and behind the renaming -/

theorem Beside.refl (free : before.entryAt temporary = none) : Beside before temporary before where
  workingDirectory := rfl
  see? _ _ := rfl
  sameFile _ _ _ _ := Iff.rfl
  removed := by
    rw [removeEntry_of_entryAt_eq_none free]
    exact Unchanged.refl before

/-- A temporary file stands beside the others and can be taken away. -/
theorem Holding.beside (holding : Holding before temporary held during)
    (free : before.entryAt temporary = none) : Beside before temporary during := by
  have entryAt (place : Place) (apart : place ≠ temporary) :
      during.entryAt place = before.entryAt place := by
    rw [holding.entryAt, if_neg apart]
  have kept (place : Place) (number : Nat) (found : before.entryAt place = some (.file number)) :
      during.file number = before.file number := by
    rw [holding.file, if_neg (ne_freshNumber found)]
  refine ⟨holding.workingDirectory,
    fun place apart => see?_congr (entryAt place apart) (kept place),
    fun left right leftApart rightApart => ?_, ?_⟩
  · simp only [Tree.sameFile, entryAt left leftApart, entryAt right rightApart]
  · refine Unchanged.of_entries holding.workingDirectory (fun place => ?_) kept
    rw [entryAt_removeEntry (ne_nil_of_free free)]
    split
    · next here => rw [here, free]
    · next apart => exact entryAt place apart

/-- A number that no entry carried names one place only. -/
theorem Replaced.exchanged {content : Bytes}
    (replaced : Replaced before target
      { content := content, mode := before.fileMode target } after) :
    Exchanged before target content after := by
  have here : after.entryAt target = some (.file before.freshNumber) := by
    rw [replaced.entryAt, if_pos rfl]
  have entryAt (place : Place) (apart : place ≠ target) :
      after.entryAt place = before.entryAt place := by
    rw [replaced.entryAt, if_neg apart]
  have kept (place : Place) (number : Nat) (found : before.entryAt place = some (.file number)) :
      after.file number = before.file number := by
    rw [replaced.file, if_neg (ne_freshNumber found)]
  refine ⟨replaced.workingDirectory, ?_, fun place apart => see?_congr (entryAt place apart)
    (kept place), fun left right apart => replaced.sameFile_of_ne apart⟩
  rw [Tree.see?, here, Option.map_some, sightOf, replaced.file, if_pos rfl]

/-! ## The steps in between -/

/-- What a step makes of the temporary file, when the file to be replaced has this mode. -/
def fill (mode : Nat) (held : File) : ReplaceStep → File
  | .append bytes => { held with content := held.content ++ bytes }
  | .copyMode => { held with mode := mode }
  | _ => held

/-- The steps between creating the temporary file and renaming it. -/
def fillingSteps (parts : List Bytes) : List ReplaceStep :=
  parts.map .append ++ [.flush, .copyMode]

theorem replaceSteps_eq (parts : List Bytes) :
    replaceSteps parts = .create :: (fillingSteps parts ++ [.rename]) := by
  simp [replaceSteps, fillingSteps]

/-- Once the temporary file has been filled it holds all of the parts, and it has the permission
bits of the file to be replaced. -/
theorem foldl_fill (mode : Nat) (parts : List Bytes) (held : File) :
    (fillingSteps parts).foldl (fill mode) held =
      { held with content := held.content ++ parts.flatten, mode := mode } := by
  induction parts generalizing held with
  | nil => simp [fillingSteps, fill]
  | cons bytes parts ih =>
    have step : (fillingSteps (bytes :: parts)).foldl (fill mode) held =
        (fillingSteps parts).foldl (fill mode) (fill mode held (.append bytes)) := rfl
    rw [step, ih, fill, List.flatten_cons, List.append_assoc]

/-- Steps that none refuses are carried out one list after the other. -/
theorem perform_append (refuses : ReplaceStep → Option IoFault) (target temporary : Place)
    (tree : Tree) (earlier later : List ReplaceStep) :
    perform refuses target temporary tree (earlier ++ later) =
      match perform refuses target temporary tree earlier with
      | (some fault, stopped) => (some fault, stopped)
      | (none, reached) => perform refuses target temporary reached later := by
  induction earlier generalizing tree with
  | nil => rfl
  | cons step earlier ih =>
    rw [List.cons_append, perform, perform]
    cases refuses step with
    | some fault => rfl
    | none =>
      cases tree.replaceStep target temporary step with
      | error fault => rfl
      | ok next => exact ih next

/-- A step that is refused behind steps that came to their end stops them with its fault. -/
theorem perform_of_refused {refuses : ReplaceStep → Option IoFault} {tree : Tree}
    {earlier later : List ReplaceStep} {step : ReplaceStep} {fault : IoFault}
    (reaches : (perform refuses target temporary tree earlier).1 = none)
    (refused : refuses step = some fault) :
    (perform refuses target temporary tree (earlier ++ step :: later)).1 = some fault := by
  rw [perform_append]
  rcases reached : perform refuses target temporary tree earlier with ⟨_ | stop, later⟩
  · simp only [perform, refused]
  · rw [reached] at reaches
    exact absurd reaches (by simp)

/-- One step in between changes the temporary file alone. -/
theorem Holding.fillStep (holding : Holding before temporary held during)
    (apart : target ≠ temporary) {parts : List Bytes} {step : ReplaceStep}
    (between : step ∈ fillingSteps parts) :
    ∃ next, during.replaceStep target temporary step = .ok next ∧
      Holding before temporary (fill (before.fileMode target) held step) next := by
  cases step with
  | create => simp [fillingSteps] at between
  | rename => simp [fillingSteps] at between
  | append bytes => exact holding.append target bytes
  | flush => exact ⟨during, rfl, holding⟩
  | copyMode => exact holding.copyMode apart

/-- **Any number of the steps in between keep the tree from before beside the temporary file**,
and only a refusal stops them. -/
theorem Holding.perform (holding : Holding before temporary held during)
    (refuses : ReplaceStep → Option IoFault) (apart : target ≠ temporary) {parts : List Bytes}
    {steps : List ReplaceStep}
    (between : ∀ step ∈ steps, step ∈ fillingSteps parts) :
    ∃ filled, Holding before temporary filled
        (perform refuses target temporary during steps).2 ∧
      ((perform refuses target temporary during steps).1 = none →
        filled = steps.foldl (fill (before.fileMode target)) held) ∧
      ((∀ step ∈ steps, refuses step = none) →
        (perform refuses target temporary during steps).1 = none) := by
  induction steps generalizing during held with
  | nil => exact ⟨held, holding, fun _ => rfl, fun _ => rfl⟩
  | cons step rest ih =>
    obtain ⟨here, later⟩ := List.forall_mem_cons.mp between
    rw [Tree.perform]
    cases allowed : refuses step with
    | some fault =>
      refine ⟨held, holding, fun ended => absurd ended (by simp), fun free => ?_⟩
      exact absurd (allowed.symm.trans (free step List.mem_cons_self)) (by simp)
    | none =>
      obtain ⟨next, carried, holding⟩ := holding.fillStep apart here
      obtain ⟨filled, reached, whole, unstopped⟩ := ih holding later
      simp only [carried]
      exact ⟨filled, reached, whole, fun free =>
        unstopped fun other member => free other (List.mem_cons_of_mem step member)⟩

/-! ## Every beginning of the steps -/

/-- The renaming is carried out and exchanges the file, or it is refused and changes nothing. -/
theorem Holding.performRename {content : Bytes}
    (holding : Holding before temporary
      { content := content, mode := before.fileMode target } during)
    (refuses : ReplaceStep → Option IoFault) (free : before.entryAt temporary = none)
    (apart : target ≠ temporary) :
    let reached := Tree.perform refuses target temporary during [.rename]
    (reached.1 = none → Exchanged before target content reached.2) ∧
      (reached.1 ≠ none → Beside before temporary reached.2) ∧
      (refuses .rename = none →
        (∀ mode isSealed, before.entryAt target ≠ some (.directory mode isSealed)) →
        reached.1 = none) := by
  have beside := holding.beside free
  cases allowed : refuses .rename with
  | some fault => simp [Tree.perform, allowed, beside]
  | none =>
    by_cases noDirectory :
        ∀ mode isSealed, before.entryAt target ≠ some (.directory mode isSealed)
    · obtain ⟨next, renamed, replaced⟩ := holding.rename free apart noDirectory
      simp [Tree.perform, allowed, renamed, replaced.exchanged]
    · simp only [not_forall, not_not] at noDirectory
      obtain ⟨mode, isSealed, directory⟩ := noDirectory
      have there : during.entryAt target = some (.directory mode isSealed) := by
        rw [holding.entryAt, if_neg apart, directory]
      simp [Tree.perform, allowed, replaceStep, there, directory, beside]

/-- **After every beginning of the steps the file is the old one or the new one.** It is the new
one exactly behind the last step. -/
theorem perform_front (refuses : ReplaceStep → Option IoFault)
    (free : before.entryAt temporary = none) (apart : target ≠ temporary) {parts : List Bytes}
    {done : List ReplaceStep} (front : done <+: replaceSteps parts) :
    let reached := perform refuses target temporary before done
    (done = replaceSteps parts ∧ reached.1 = none →
        Exchanged before target parts.flatten reached.2) ∧
      (¬ (done = replaceSteps parts ∧ reached.1 = none) → Beside before temporary reached.2) := by
  rw [replaceSteps_eq] at front ⊢
  cases done with
  | nil => exact ⟨fun ended => absurd ended.1 (by simp), fun _ => Beside.refl free⟩
  | cons first rest =>
    obtain ⟨rfl, behind⟩ := List.cons_prefix_cons.mp front
    rw [perform]
    cases allowed : refuses .create with
    | some fault => exact ⟨fun ended => absurd ended.2 (by simp), fun _ => Beside.refl free⟩
    | none =>
      cases created : before.replaceStep target temporary .create with
      | error fault => exact ⟨fun ended => absurd ended.2 (by simp), fun _ => Beside.refl free⟩
      | ok next =>
        have unsealed : before.isSealed temporary.tail = false := by
          by_contra shut
          rw [replaceStep, if_pos (by simpa using shut)] at created
          exact absurd created (by simp)
        obtain ⟨during, create, holding⟩ := replaceStep_create target free unsealed
        obtain rfl : during = next := Except.ok.inj (create.symm.trans created)
        rcases List.prefix_concat_iff.mp behind with rfl | short
        · obtain ⟨filled, holding, whole, _⟩ :=
            holding.perform refuses apart fun step member => member
          simp only [perform_append, true_and]
          rcases reached : perform refuses target temporary during (fillingSteps parts) with
            ⟨_ | fault, later⟩
          · rw [reached] at holding whole
            rw [whole rfl, foldl_fill, List.nil_append] at holding
            obtain ⟨exchanged, beside, _⟩ := holding.performRename refuses free apart
            exact ⟨exchanged, beside⟩
          · rw [reached] at holding
            exact ⟨fun ended => absurd ended (by simp), fun _ => holding.beside free⟩
        · obtain ⟨filled, holding, _⟩ :=
            holding.perform refuses apart fun step member => short.mem member
          refine ⟨fun ended => ?_, fun _ => holding.beside free⟩
          have longer := short.length_le
          rw [(List.cons.inj ended.1).2, List.length_append, List.length_singleton] at longer
          omega

/-- Nothing but a refusal stops the steps in front of the last one, once the temporary file can be
created. -/
theorem perform_before {refuses : ReplaceStep → Option IoFault}
    (free : before.entryAt temporary = none) (apart : target ≠ temporary)
    (unsealed : before.isSealed temporary.tail = false) {parts : List Bytes}
    {earlier later : List ReplaceStep} {step : ReplaceStep}
    (steps : replaceSteps parts = earlier ++ step :: later)
    (allowed : ∀ other ∈ earlier, refuses other = none) :
    (perform refuses target temporary before earlier).1 = none := by
  rw [replaceSteps_eq] at steps
  cases earlier with
  | nil => rfl
  | cons first rest =>
    obtain ⟨rfl, behind⟩ := List.cons.inj steps
    have inside : rest <+: fillingSteps parts := by
      have front : rest <+: fillingSteps parts ++ [.rename] := ⟨step :: later, behind.symm⟩
      refine (List.prefix_concat_iff.mp front).resolve_left fun whole => ?_
      have longer := congrArg List.length behind
      rw [whole] at longer
      simp at longer
    obtain ⟨createAllowed, restAllowed⟩ := List.forall_mem_cons.mp allowed
    obtain ⟨during, created, holding⟩ := replaceStep_create target free unsealed
    obtain ⟨_, _, _, unstopped⟩ :=
      holding.perform refuses apart fun other member => inside.mem member
    rw [perform, createAllowed]
    simp only [created]
    exact unstopped restAllowed

/-- Steps that nothing refuses come to their end. -/
theorem perform_replaceSteps (refuses : ReplaceStep → Option IoFault)
    (free : before.entryAt temporary = none) (apart : target ≠ temporary)
    (unsealed : before.isSealed temporary.tail = false)
    (noDirectory : ∀ mode isSealed, before.entryAt target ≠ some (.directory mode isSealed))
    {parts : List Bytes} (allowed : ∀ step ∈ replaceSteps parts, refuses step = none) :
    (perform refuses target temporary before (replaceSteps parts)).1 = none := by
  rw [replaceSteps_eq] at allowed ⊢
  obtain ⟨createAllowed, later⟩ := List.forall_mem_cons.mp allowed
  obtain ⟨fillAllowed, renameAllowed⟩ := List.forall_mem_append.mp later
  obtain ⟨during, created, holding⟩ := replaceStep_create target free unsealed
  obtain ⟨filled, holding, whole, unstopped⟩ :=
    holding.perform refuses apart fun step member => member
  rw [perform, createAllowed]
  simp only [created, perform_append]
  have ended := unstopped fillAllowed
  rcases reached : perform refuses target temporary during (fillingSteps parts) with
    ⟨_ | fault, later⟩
  · rw [reached] at holding whole
    rw [whole rfl, foldl_fill, List.nil_append] at holding
    exact (holding.performRename refuses free apart).2.2
      (renameAllowed .rename List.mem_cons_self) noDirectory
  · rw [reached] at ended
    exact absurd ended (by simp)

/-! ## The whole replacement -/

section Whole

variable {refuses : ReplaceStep → Option IoFault} {tree : Tree} {path : Path} {entry : Entry}
  {parts : List Bytes}

/-- The temporary file takes a place of its own. -/
theorem free_of_find (found : tree.find path = .ok (target, entry)) :
    tree.entryAt (tree.freshName target.tail :: target.tail) = none ∧
      target ≠ tree.freshName target.tail :: target.tail := by
  have missing := entryAt_freshName tree target.tail
  refine ⟨missing, fun same => ?_⟩
  have there := (find_eq_ok_iff.mp found).2
  rw [same, missing] at there
  exact absurd there (by simp)

/-- A replacement of what a path finds answers as its steps end, and it takes the temporary file
away when they do not come to their end. -/
theorem replaceUnder_of_find (found : tree.find path = .ok (target, entry)) :
    let temporary := tree.freshName target.tail :: target.tail
    let reached := perform refuses target temporary tree (replaceSteps parts)
    tree.replaceUnder refuses path parts =
      if pathLimit ≤ (absolutePath target).length then (.error (.system .nameTooLong), tree)
      else match reached.1 with
        | none => (.ok (), reached.2)
        | some fault => (.error fault, reached.2.removeEntry temporary) := by
  rw [replaceUnder, found]
  simp only
  split
  · rfl
  · split <;> simp_all

/-- **A replacement that fails leaves the tree unchanged.** -/
theorem unchanged_of_replaceUnder {fault : IoFault}
    (failed : (tree.replaceUnder refuses path parts).1 = .error fault) :
    Unchanged tree (tree.replaceUnder refuses path parts).2 := by
  cases found : tree.find path with
  | error cause =>
    rw [replaceUnder, found]
    exact Unchanged.refl tree
  | ok reached =>
    obtain ⟨target, entry⟩ := reached
    obtain ⟨free, apart⟩ := free_of_find found
    rw [replaceUnder_of_find found] at failed ⊢
    split at failed
    · next long =>
      rw [if_pos long]
      exact Unchanged.refl tree
    · next short =>
      rw [if_neg short]
      split at failed
      · exact absurd failed (by simp)
      · next cause stopped =>
        have front := List.prefix_refl (replaceSteps parts)
        exact ((perform_front refuses free apart front).2 (by simp [stopped])).removed

/-- **A replacement that succeeds has exchanged the file that the path leads to.** -/
theorem exchanged_of_replaceUnder
    (succeeded : (tree.replaceUnder refuses path parts).1 = .ok ()) :
    ∃ target entry, tree.find path = .ok (target, entry) ∧
      Exchanged tree target parts.flatten (tree.replaceUnder refuses path parts).2 := by
  cases found : tree.find path with
  | error cause =>
    rw [replaceUnder, found] at succeeded
    exact absurd succeeded (by simp)
  | ok reached =>
    obtain ⟨target, entry⟩ := reached
    obtain ⟨free, apart⟩ := free_of_find found
    refine ⟨target, entry, rfl, ?_⟩
    rw [replaceUnder_of_find found] at succeeded ⊢
    split at succeeded
    · exact absurd succeeded (by simp)
    · next short =>
      rw [if_neg short]
      split at succeeded
      · next ended =>
        exact (perform_front refuses free apart (List.prefix_refl _)).1 ⟨rfl, ended⟩
      · exact absurd succeeded (by simp)

/-- **A replacement fails with the fault of the first step that is refused**, or with what is in its
way in the tree. -/
theorem replaceUnder_of_refused (found : tree.find path = .ok (target, entry))
    {earlier later : List ReplaceStep} {step : ReplaceStep} {fault : IoFault}
    (steps : replaceSteps parts = earlier ++ step :: later)
    (allowed : ∀ other ∈ earlier, refuses other = none) (refused : refuses step = some fault) :
    ∃ cause, (tree.replaceUnder refuses path parts).1 = .error cause ∧
      (cause = fault ∨ tree.replaceFault? target = some cause) := by
  obtain ⟨free, apart⟩ := free_of_find found
  by_cases long : pathLimit ≤ (absolutePath target).length
  · refine ⟨.system .nameTooLong, ?_, .inr (by rw [replaceFault?, if_pos long])⟩
    rw [replaceUnder_of_find found, if_pos long]
  · have stops (reaches : (perform refuses target (tree.freshName target.tail :: target.tail) tree
        earlier).1 = none) : (tree.replaceUnder refuses path parts).1 = .error fault := by
      rw [replaceUnder_of_find found, if_neg long, steps]
      simp only [perform_of_refused reaches refused]
    cases earlier with
    | nil => exact ⟨fault, stops rfl, .inl rfl⟩
    | cons first rest =>
      obtain ⟨rfl, _⟩ := List.cons.inj steps
      cases hindered : tree.replaceFault? target with
      | some cause =>
        have create := allowed .create List.mem_cons_self
        exact ⟨cause, by rw [replaceUnder_of_fault found hindered create], .inr rfl⟩
      | none =>
        have unsealed : tree.isSealed target.tail = false := by
          rw [replaceFault?, if_neg long] at hindered
          by_contra shut
          rw [if_pos (Bool.not_eq_false _ ▸ shut)] at hindered
          exact absurd hindered (by simp)
        exact ⟨fault, stops (perform_before free apart unsealed steps allowed), .inl rfl⟩

/-- A file is replaced when no step is refused and nothing in the tree is against it. -/
theorem replaceUnder_of_allowed {number : Nat}
    (found : tree.find path = .ok (target, .file number))
    (unhindered : tree.replaceFault? target = none)
    (allowed : ∀ step ∈ replaceSteps parts, refuses step = none) :
    (tree.replaceUnder refuses path parts).1 = .ok () := by
  obtain ⟨free, apart⟩ := free_of_find found
  have there := (find_eq_ok_iff.mp found).2
  rw [replaceFault?] at unhindered
  by_cases long : pathLimit ≤ (absolutePath target).length
  · rw [if_pos long] at unhindered
    exact absurd unhindered (by simp)
  · by_cases shut : tree.isSealed target.tail = true
    · rw [if_neg long, if_pos shut] at unhindered
      exact absurd unhindered (by simp)
    · have ended := perform_replaceSteps refuses free apart (by simpa using shut)
        (by simp [there]) allowed
      rw [replaceUnder_of_find found, if_neg long]
      simp only [ended]

end Whole

/-- **An atomic replacement is all or nothing**, whatever refuses a step and in however many parts
the bytes are written. A replacement that fails leaves the tree unchanged, with no temporary file.
One that succeeds has exchanged the file that the path leads to, under that one name. In between,
after every beginning of the steps, one sees the tree from before apart from the temporary file,
until the last step exchanges the file. The first step that is refused makes the replacement fail
with its fault, unless something in the tree is in the way, which is the fault then; without
either, a file is replaced. -/
theorem replaceUnder_all_or_nothing (refuses : ReplaceStep → Option IoFault) (tree : Tree)
    (path : Path) (parts : List Bytes) :
    (∀ fault, (tree.replaceUnder refuses path parts).1 = .error fault →
      Unchanged tree (tree.replaceUnder refuses path parts).2) ∧
    ((tree.replaceUnder refuses path parts).1 = .ok () →
      ∃ target entry, tree.find path = .ok (target, entry) ∧
        Exchanged tree target parts.flatten (tree.replaceUnder refuses path parts).2) ∧
    ∀ target entry, tree.find path = .ok (target, entry) →
      let temporary := tree.freshName target.tail :: target.tail
      (tree.entryAt temporary = none ∧ target ≠ temporary) ∧
      (∀ done, done <+: replaceSteps parts →
        let reached := perform refuses target temporary tree done
        (done = replaceSteps parts ∧ reached.1 = none →
            Exchanged tree target parts.flatten reached.2) ∧
          (¬ (done = replaceSteps parts ∧ reached.1 = none) →
            Beside tree temporary reached.2)) ∧
      (∀ earlier step later fault, replaceSteps parts = earlier ++ step :: later →
        (∀ other ∈ earlier, refuses other = none) → refuses step = some fault →
        ∃ cause, (tree.replaceUnder refuses path parts).1 = .error cause ∧
          (cause = fault ∨ tree.replaceFault? target = some cause)) ∧
      (∀ cause, tree.replaceFault? target = some cause → refuses .create = none →
        (tree.replaceUnder refuses path parts).1 = .error cause) ∧
      (∀ number, entry = .file number → tree.replaceFault? target = none →
        (∀ step ∈ replaceSteps parts, refuses step = none) →
          (tree.replaceUnder refuses path parts).1 = .ok ()) := by
  refine ⟨fun fault => unchanged_of_replaceUnder, exchanged_of_replaceUnder,
    fun target entry found => ?_⟩
  obtain ⟨free, apart⟩ := free_of_find found
  refine ⟨⟨free, apart⟩, fun done front => perform_front refuses free apart front,
    fun earlier step later fault => replaceUnder_of_refused found, fun cause hindered allowed => ?_,
    ?_⟩
  · rw [replaceUnder_of_fault found hindered allowed]
  rintro number rfl
  exact replaceUnder_of_allowed found

/-- A file with two names and a link to the first of them. -/
def sharedTree : Tree :=
  ((({} : Tree).addFile [Bytes.ofString "a.lua"]
    { content := Bytes.ofString "-- Old", mode := 0o640 }).setEntry
      [Bytes.ofString "b.lua"] (.file 0)).addLink [Bytes.ofString "c.lua"] (Bytes.ofString "a.lua")

/-- Through the link, with the bytes written in two parts: a renaming that is refused leaves all
as it was and answers why, and one that is not gives the first name alone the new bytes. -/
theorem replaceUnder_all_or_nothing_sharedTree :
    let path := Bytes.ofString "c.lua"
    let parts := [Bytes.ofString "-- ", Bytes.ofString "new"]
    let refuses (step : ReplaceStep) : Option IoFault :=
      if step = .rename then some (.system .inputOutput) else none
    (sharedTree.replaceUnder refuses path parts).1 = .error (.system .inputOutput) ∧
      Unchanged sharedTree (sharedTree.replaceUnder refuses path parts).2 ∧
      (sharedTree.replaceUnder (fun _ => none) path parts).1 = .ok () ∧
      Exchanged sharedTree [Bytes.ofString "a.lua"] (Bytes.ofString "-- new")
        (sharedTree.replaceUnder (fun _ => none) path parts).2 := by
  intro path parts refuses
  have found : sharedTree.find path = .ok ([Bytes.ofString "a.lua"], .file 0) := rfl
  have unhindered : sharedTree.replaceFault? [Bytes.ofString "a.lua"] = none := rfl
  obtain ⟨failing, _, during⟩ := replaceUnder_all_or_nothing refuses sharedTree path parts
  obtain ⟨_, _, refused, _, _⟩ := during _ _ found
  obtain ⟨cause, failed, rfl | hindered⟩ :=
    refused (.create :: parts.map .append ++ [.flush, .copyMode]) .rename [] _ rfl
      (by simp [refuses, parts]) rfl
  swap
  · exact absurd (hindered.symm.trans unhindered) (by simp)
  obtain ⟨_, succeeding, during⟩ :=
    replaceUnder_all_or_nothing (fun _ => none) sharedTree path parts
  obtain ⟨_, _, _, _, allowed⟩ := during _ _ found
  have succeeded := allowed 0 rfl unhindered fun _ _ => rfl
  obtain ⟨target, entry, reached, exchanged⟩ := succeeding succeeded
  obtain ⟨rfl, rfl⟩ := Prod.mk.inj (Except.ok.inj (found.symm.trans reached))
  have whole : parts.flatten = Bytes.ofString "-- new" := by decide +kernel
  rw [whole] at exchanged
  exact ⟨failed, failing _ failed, succeeded, exchanged⟩

end LowerComments.Tree
