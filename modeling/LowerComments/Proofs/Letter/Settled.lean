import LowerComments.Letter.Lower
import LowerComments.Letter.Sigma

/-!
# Settled characters

A character is settled when lower-casing a span leaves it alone: it is its own
lower-case form, or that form has more than one character. Lower-casing is done
in one pass because the lower-case character of any letter is settled
(`settled_of_lowerCase`). Both small sigmas are settled too, and so nothing that a
span in lower case holds has a form that a second pass would choose.

The statement about all letters is read off the table of runs. A run is tested
against another by its ends: the codes that it moves to lie outside the interval
of the other run, or both runs take every second code and never the same ones
(`Run.avoids`). The test is evaluated for each pair of runs, and its meaning is
proved once (`Run.not_covers_move`).
-/

set_option autoImplicit false

namespace LowerComments.Letter

/-- Lower-casing a span leaves the character as it is. -/
def Settled (letter : Char) : Prop :=
  lowerCase letter = [letter] ∨ 1 < (lowerCase letter).length

instance (letter : Char) : Decidable (Settled letter) :=
  inferInstanceAs (Decidable (_ ∨ _))

/-! ## Runs against runs -/

theorem Run.covers_iff {run : Run} {code : Nat} :
    run.covers code = true ↔
      run.first ≤ code ∧ code ≤ run.last ∧ (code - run.first) % run.step = 0 := by
  simp [Run.covers, and_assoc]

/-- The run takes every code or every second one, and it moves its codes to codes of
characters. -/
def Run.isSound (run : Run) : Bool :=
  (run.step == 1 || run.step == 2) && decide (0 ≤ Int.ofNat run.first + run.shift) &&
    (Nat.blt (run.move run.last) 0xD800 ||
      (Nat.blt 0xDFFF (run.move run.first) && Nat.blt (run.move run.last) 0x110000))

/-- The codes that one run moves to are none of the codes of the other, as far as the ends of
the runs tell. -/
def Run.avoids (run other : Run) : Bool :=
  Nat.blt (run.move run.last) other.first || Nat.blt other.last (run.move run.first) ||
    ((run.step == 2 || run.first == run.last) && other.step == 2 &&
      (run.move run.first + other.first) % 2 == 1)

/-- A run moves its codes to codes between those of its ends. -/
theorem Run.move_bounds {run : Run} {code : Nat} (covered : run.covers code = true) :
    run.move run.first ≤ run.move code ∧ run.move code ≤ run.move run.last := by
  obtain ⟨above, below, _⟩ := Run.covers_iff.mp covered
  unfold Run.move
  simp only [Int.ofNat_eq_natCast]
  omega

/-- **A run that avoids another one moves no code to a code of the other.** -/
theorem Run.not_covers_move {run other : Run} {code : Nat} (sound : run.isSound = true)
    (avoids : run.avoids other = true) (covered : run.covers code = true) :
    other.covers (run.move code) = false := by
  obtain ⟨lower, upper⟩ := Run.move_bounds covered
  obtain ⟨above, below, onStep⟩ := Run.covers_iff.mp covered
  rw [Bool.eq_false_iff]
  intro hit
  obtain ⟨otherAbove, otherBelow, otherStep⟩ := Run.covers_iff.mp hit
  simp only [Run.avoids, Bool.or_eq_true, Bool.and_eq_true, Nat.blt_eq, beq_iff_eq] at avoids
  rcases avoids with (before | behind) | ⟨⟨sparse, otherSparse⟩, parity⟩
  · omega
  · omega
  · -- Both ends keep their parity on the way, so the two codes differ by an odd number.
    simp only [Run.isSound, Bool.and_eq_true, decide_eq_true_eq] at sound
    have start := sound.1.2
    rw [otherSparse] at otherStep
    have even : (code - run.first) % 2 = 0 := by
      rcases sparse with step | single
      · rwa [step] at onStep
      · omega
    unfold Run.move at parity otherStep otherAbove
    simp only [Int.ofNat_eq_natCast] at parity otherStep otherAbove start
    omega

/-- The runs and the two characters that no letter is moved to, each taken as a run. -/
def unreachedRuns : List Run :=
  ⟨0x130, 0x130, 1, 0⟩ :: ⟨0xA, 0xA, 1, 0⟩ :: lowerRuns

theorem lowerRuns_checked :
    (lowerRuns.all fun run => run.isSound && unreachedRuns.all fun other => run.avoids other) =
      true := by
  decide +kernel

theorem isSound_of_mem {run : Run} (member : run ∈ lowerRuns) : run.isSound = true := by
  have checked := List.all_eq_true.mp lowerRuns_checked run member
  exact (Bool.and_eq_true_iff.mp checked).1

theorem avoids_of_mem {run other : Run} (member : run ∈ lowerRuns)
    (unreached : other ∈ unreachedRuns) : run.avoids other = true := by
  have checked := List.all_eq_true.mp lowerRuns_checked run member
  exact List.all_eq_true.mp (Bool.and_eq_true_iff.mp checked).2 other unreached

/-! ## Lower-case codes -/

/-- A letter's code lies in a run, and the run moves it. -/
theorem exists_run_of_lowerCode? {code moved : Nat} (lower : lowerCode? code = some moved) :
    ∃ run ∈ lowerRuns, run.covers code = true ∧ run.move code = moved := by
  obtain ⟨run, found, same⟩ := Option.map_eq_some_iff.mp lower
  exact ⟨run, List.mem_of_find?_eq_some found, by simpa using List.find?_some found, same⟩

/-- No letter is moved to a code of a run that is not reached. -/
theorem not_covers_of_lowerCode? {code moved : Nat} (lower : lowerCode? code = some moved)
    {other : Run} (unreached : other ∈ unreachedRuns) : other.covers moved = false := by
  obtain ⟨run, member, covered, rfl⟩ := exists_run_of_lowerCode? lower
  exact Run.not_covers_move (isSound_of_mem member) (avoids_of_mem member unreached) covered

/-- The lower-case code of a letter has no lower-case code itself. -/
theorem lowerCode?_of_lowerCode? {code moved : Nat} (lower : lowerCode? code = some moved) :
    lowerCode? moved = none := by
  unfold lowerCode?
  rw [Option.map_eq_none_iff, List.find?_eq_none]
  intro run member
  have missed := not_covers_of_lowerCode? lower
    (List.mem_cons_of_mem _ (List.mem_cons_of_mem _ member))
  simp [missed]

/-- The lower-case code of a letter is the code of a character. -/
theorem isValidChar_of_lowerCode? {code moved : Nat} (lower : lowerCode? code = some moved) :
    moved.isValidChar := by
  obtain ⟨run, member, covered, rfl⟩ := exists_run_of_lowerCode? lower
  have sound := isSound_of_mem member
  obtain ⟨above, below⟩ := Run.move_bounds covered
  simp only [Run.isSound, Bool.and_eq_true, Bool.or_eq_true, Nat.blt_eq] at sound
  unfold Nat.isValidChar
  omega

theorem toNat_ofNat {code : Nat} (valid : code.isValidChar) : (Char.ofNat code).toNat = code := by
  rw [Char.ofNat, dif_pos valid]
  rfl

/-! ## Lower-case characters -/

/-- The two ways in which a lower-case form is a single character. -/
theorem lowerCase_cases {letter lower : Char} (single : lowerCase letter = [lower]) :
    lower = letter ∨
      ∃ moved, lowerCode? letter.toNat = some moved ∧ lower = Char.ofNat moved := by
  unfold lowerCase at single
  split at single
  · simp at single
  · cases found : lowerCode? letter.toNat with
    | none =>
      rw [found] at single
      exact .inl (by simpa using single.symm)
    | some moved =>
      rw [found] at single
      exact .inr ⟨moved, rfl, by simpa using single.symm⟩

/-- **The lower-case character of a letter is its own lower-case form.** -/
theorem lowerCase_of_lowerCase {letter lower : Char} (single : lowerCase letter = [lower]) :
    lowerCase lower = [lower] := by
  rcases lowerCase_cases single with rfl | ⟨moved, found, rfl⟩
  · exact single
  · have valid := isValidChar_of_lowerCode? found
    have notDotted : Char.ofNat moved ≠ dottedCapitalI := by
      intro same
      have missed := not_covers_of_lowerCode? found (List.mem_cons_self ..)
      have code : moved = 0x130 := by rw [← toNat_ofNat valid, same]; rfl
      rw [code] at missed
      revert missed
      decide
    unfold lowerCase
    rw [if_neg notDotted, toNat_ofNat valid, lowerCode?_of_lowerCode? found]

/-- **No letter becomes a line feed.** -/
theorem ne_lineFeed_of_lowerCase {letter lower : Char} (single : lowerCase letter = [lower])
    (other : letter ≠ '\n') : lower ≠ '\n' := by
  rcases lowerCase_cases single with rfl | ⟨moved, found, rfl⟩
  · exact other
  · intro same
    have missed := not_covers_of_lowerCode? found
      (List.mem_cons_of_mem _ (List.mem_cons_self ..))
    have code : moved = 0xA := by
      rw [← toNat_ofNat (isValidChar_of_lowerCode? found), same]
      rfl
    rw [code] at missed
    revert missed
    decide

/-- **Lower-case characters are settled.** -/
theorem settled_of_lowerCase {letter lower : Char} (single : lowerCase letter = [lower]) :
    Settled lower :=
  .inl (lowerCase_of_lowerCase single)

theorem lowerCase_capitalSigma : lowerCase capitalSigma = [smallSigma] := by
  decide +kernel

theorem settled_smallSigma : Settled smallSigma :=
  settled_of_lowerCase lowerCase_capitalSigma

theorem settled_finalSigma : Settled finalSigma := by
  decide +kernel

theorem settled_hyphen : Settled '-' := by
  decide +kernel

/-- The characters of the shipped marker are settled. -/
theorem settled_hyphens : ∀ letter ∈ ['-', '-'], Settled letter :=
  List.forall_mem_cons.mpr ⟨settled_hyphen, List.forall_mem_singleton.mpr settled_hyphen⟩

theorem Settled.ne_capitalSigma {letter : Char} (settled : Settled letter) :
    letter ≠ capitalSigma := by
  rintro rfl
  rcases settled with same | long
  · rw [lowerCase_capitalSigma] at same
    exact absurd same (by decide)
  · rw [lowerCase_capitalSigma] at long
    exact absurd long (by decide)

theorem settled_of_sigmaBetween (before after : List Char) :
    Settled (sigmaBetween before after) := by
  unfold sigmaBetween
  split
  · exact settled_finalSigma
  · exact settled_smallSigma

end LowerComments.Letter
