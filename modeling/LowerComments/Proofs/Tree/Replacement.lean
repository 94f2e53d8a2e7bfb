import LowerComments.Proofs.Tree.Temporary

/-!
# Replacing a file, step by step

While a file is being replaced, the tree is the one from before with a temporary
file beside the others (`Holding`). Each step up to the renaming keeps this form and
changes the temporary file alone, and the renaming gives the name of the file to the
temporary one and takes the temporary name away (`Replaced`).

A replacement that is refused leaves the tree as it was. What refuses it is the
length of the path from the root or the directory of the file (`replaceFault?`), and
neither depends on the file itself.
-/

set_option autoImplicit false

namespace LowerComments.Tree

/-- The tree from before with a temporary file under a fresh number. -/
structure Holding (before : Tree) (temporary : Place) (held : File) (during : Tree) : Prop where
  workingDirectory : during.workingDirectory = before.workingDirectory
  entryAt : ∀ place, during.entryAt place =
    if place = temporary then some (.file before.freshNumber) else before.entryAt place
  file : ∀ number, during.file number =
    if number = before.freshNumber then held else before.file number

/-- The tree from before with another file, under a fresh number, at one place. -/
structure Replaced (before : Tree) (target : Place) (file : File) (after : Tree) : Prop where
  workingDirectory : after.workingDirectory = before.workingDirectory
  entryAt : ∀ place, after.entryAt place =
    if place = target then some (.file before.freshNumber) else before.entryAt place
  file : ∀ number, after.file number =
    if number = before.freshNumber then file else before.file number

theorem fileMode_of_entryAt {tree : Tree} {place : Place} {number : Nat}
    (entry : tree.entryAt place = some (.file number)) :
    tree.fileMode place = (tree.file number).mode := by
  rw [fileMode, entry]

/-! ## The steps -/

section Steps

variable {before during : Tree} {target temporary : Place} {held : File}

theorem Holding.entryAt_temporary (holding : Holding before temporary held during) :
    during.entryAt temporary = some (.file before.freshNumber) := by
  rw [holding.entryAt, if_pos rfl]

theorem Holding.held_file (holding : Holding before temporary held during) :
    during.file before.freshNumber = held := by
  rw [holding.file, if_pos rfl]

/-- A temporary file is created empty, in a directory that takes new entries. -/
theorem replaceStep_create (target : Place) (free : before.entryAt temporary = none)
    (unsealed : before.isSealed temporary.tail = false) :
    ∃ next, before.replaceStep target temporary .create = .ok next ∧
      Holding before temporary { mode := temporaryMode } next := by
  refine ⟨before.addFile temporary { mode := temporaryMode }, ?_, rfl, fun place => ?_,
    fun number => ?_⟩
  · rw [replaceStep, unsealed]
    rfl
  · rw [entryAt_addFile free]
  · rw [file_addFile]

/-- Changing the temporary file changes nothing else. -/
theorem Holding.modifyFile (holding : Holding before temporary held during)
    (change : File → File) :
    Holding before temporary (change held) (during.modifyFile temporary change) := by
  have changed : during.modifyFile temporary change =
      during.setFile before.freshNumber (change held) := by
    rw [Tree.modifyFile, holding.entryAt_temporary]
    simp only [holding.held_file]
  rw [changed]
  refine ⟨holding.workingDirectory, fun place => ?_, fun number => ?_⟩
  · rw [entryAt_setFile, holding.entryAt]
  · rw [file_setFile, holding.file]
    split <;> rfl

/-- Bytes are written at the end of the temporary file. -/
theorem Holding.append (holding : Holding before temporary held during) (target : Place)
    (bytes : Bytes) :
    ∃ next, during.replaceStep target temporary (.append bytes) = .ok next ∧
      Holding before temporary { held with content := held.content ++ bytes } next :=
  ⟨_, rfl, holding.modifyFile fun file => { file with content := file.content ++ bytes }⟩

/-- The file to be replaced keeps its permission bits while the temporary file is there. -/
theorem Holding.fileMode (holding : Holding before temporary held during)
    (apart : target ≠ temporary) : during.fileMode target = before.fileMode target := by
  have there : during.entryAt target = before.entryAt target := by
    rw [holding.entryAt, if_neg apart]
  rw [Tree.fileMode, Tree.fileMode, there]
  cases entry : before.entryAt target with
  | none => rfl
  | some found =>
    cases found with
    | directory mode isSealed => rfl
    | link number path => rfl
    | file number => simp only [holding.file, if_neg (ne_freshNumber entry)]

/-- The temporary file takes the permission bits of the file that it replaces. -/
theorem Holding.copyMode (holding : Holding before temporary held during)
    (apart : target ≠ temporary) :
    ∃ next, during.replaceStep target temporary .copyMode = .ok next ∧
      Holding before temporary { held with mode := before.fileMode target } next := by
  refine ⟨_, rfl, ?_⟩
  rw [holding.fileMode apart]
  exact holding.modifyFile fun file => { file with mode := before.fileMode target }

/-- The temporary file takes the name of the file that it replaces. -/
theorem Holding.rename (holding : Holding before temporary held during)
    (free : before.entryAt temporary = none) (apart : target ≠ temporary)
    (noDirectory : ∀ mode isSealed, before.entryAt target ≠ some (.directory mode isSealed)) :
    ∃ next, during.replaceStep target temporary .rename = .ok next ∧
      Replaced before target held next := by
  have there : during.entryAt target = before.entryAt target := by
    rw [holding.entryAt, if_neg apart]
  have below : target ≠ [] := by
    rintro rfl
    exact absurd rfl (noDirectory _ _)
  have moved : during.moveEntry temporary target =
      (during.setEntry target (.file before.freshNumber)).removeEntry temporary := by
    rw [moveEntry, holding.entryAt_temporary]
  refine ⟨during.moveEntry temporary target, ?_, ?_⟩
  · rw [replaceStep, there]
    split
    · next found => exact absurd found (noDirectory _ _)
    · rfl
  · rw [moved]
    refine ⟨holding.workingDirectory, fun place => ?_, fun other => ?_⟩
    · rw [entryAt_removeEntry (ne_nil_of_free free), entryAt_setEntry below, holding.entryAt]
      by_cases here : place = temporary
      · rw [if_pos here, here, if_neg (Ne.symm apart), free]
      · rw [if_neg here, if_neg here]
    · rw [file_removeEntry, file_setEntry, holding.file]

end Steps

/-- A replaced file has no other name, and the other names share their files as before. -/
theorem Replaced.sameFile_of_ne {before after : Tree} {target left right : Place} {file : File}
    (replaced : Replaced before target file after) (apart : left ≠ target) :
    after.sameFile left right ↔ right ≠ target ∧ before.sameFile left right := by
  have there (place : Place) (elsewhere : place ≠ target) :
      after.entryAt place = before.entryAt place := by
    rw [replaced.entryAt, if_neg elsewhere]
  by_cases other : right = target
  · refine ⟨?_, fun both => absurd other both.1⟩
    -- An entry from before would have to carry the fresh number.
    rintro ⟨entry, number, numbered, here, fresh⟩
    rw [other, replaced.entryAt, if_pos rfl] at fresh
    rw [there left apart, ← Option.some.inj fresh] at here
    exact absurd rfl (ne_freshNumber here)
  · simp only [Tree.sameFile, there left apart, there right other, other, ne_eq,
      not_false_eq_true, true_and]

/-! ## The whole replacement -/

/-- Why the file at a place cannot be replaced. -/
def replaceFault? (tree : Tree) (place : Place) : Option IoFault :=
  if pathLimit ≤ (absolutePath place).length then some (.system .nameTooLong)
  else if tree.isSealed place.tail then
    some (.creating .notFound (absolutePath (tree.freshName place.tail :: place.tail)))
  else none

variable {tree : Tree} {path : Path} {place : Place} {file : File}

/-- What is in the way of a replacement is its fault, and the tree stays as it was, unless the
temporary file is refused for another reason. -/
theorem replaceUnder_of_fault {refuses : ReplaceStep → Option IoFault} {entry : Entry}
    (found : tree.find path = .ok (place, entry)) {cause : IoFault}
    (hindered : tree.replaceFault? place = some cause) (allowed : refuses .create = none)
    (parts : List Bytes) :
    tree.replaceUnder refuses path parts = (.error cause, tree) := by
  rw [replaceFault?] at hindered
  rw [replaceUnder, found]
  by_cases long : pathLimit ≤ (absolutePath place).length
  · rw [if_pos long] at hindered
    simp only [if_pos long, Option.some.inj hindered]
  · rw [if_neg long] at hindered
    by_cases shut : tree.isSealed place.tail = true
    · rw [if_pos shut] at hindered
      have stopped : tree.replaceStep place (tree.freshName place.tail :: place.tail) .create =
          .error cause := by
        rw [replaceStep, List.tail_cons, if_pos shut, Option.some.inj hindered]
      simp only [if_neg long, replaceSteps, List.cons_append, perform, allowed, stopped]
      rw [removeEntry_of_entryAt_eq_none (entryAt_freshName tree place.tail)]
    · rw [if_neg shut] at hindered
      exact absurd hindered (by simp)

/-- **A replacement that is refused leaves the tree as it was.** -/
theorem replace_of_fault (leads : tree.LeadsTo path place file) {cause : IoFault}
    (refused : tree.replaceFault? place = some cause) (content : Bytes) :
    tree.replace path content = (.error cause, tree) := by
  obtain ⟨number, found, _, _⟩ := leads.find
  exact replaceUnder_of_fault found refused rfl [content]

/-- **A replacement that is not refused gives the place a file with the new bytes and the old
permission bits, and changes nothing else.** -/
theorem replace_of_no_fault (leads : tree.LeadsTo path place file)
    (free : tree.replaceFault? place = none) (content : Bytes) :
    ∃ after, tree.replace path content = (.ok (), after) ∧
      Replaced tree place { content := content, mode := file.mode } after := by
  obtain ⟨number, found, entry, held⟩ := leads.find
  have short : ¬ pathLimit ≤ (absolutePath place).length := by
    intro long
    rw [replaceFault?, if_pos long] at free
    exact absurd free (by simp)
  have unsealed : tree.isSealed place.tail = false := by
    rw [replaceFault?, if_neg short] at free
    by_contra shut
    rw [if_pos (Bool.not_eq_false _ ▸ shut)] at free
    exact absurd free (by simp)
  have missing := entryAt_freshName tree place.tail
  have apart : place ≠ tree.freshName place.tail :: place.tail := by
    intro same
    rw [← same, entry] at missing
    exact absurd missing (by simp)
  obtain ⟨created, create, holding⟩ := replaceStep_create place missing unsealed
  obtain ⟨filled, append, holding⟩ := holding.append place content
  have flush : filled.replaceStep place (tree.freshName place.tail :: place.tail) .flush =
      .ok filled := rfl
  obtain ⟨copied, copyMode, holding⟩ := holding.copyMode apart
  obtain ⟨after, rename, replaced⟩ := holding.rename missing apart (by simp [entry])
  refine ⟨after, ?_, ?_⟩
  · rw [replace, replaceUnder, found]
    simp only [if_neg short, replaceSteps, List.map_cons, List.map_nil, List.cons_append,
      List.nil_append, perform, create, append, flush, copyMode, rename]
  · rw [fileMode_of_entryAt entry, held] at replaced
    exact replaced

end LowerComments.Tree
