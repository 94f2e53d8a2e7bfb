import LowerComments.Proofs.Letter.Settled
import Mathlib.Data.List.Chain

/-!
# Lower-casing does not change the role of a character

The form of a capital sigma depends on its neighbours, and of a neighbour it asks two
things: whether it is case-ignorable and whether it is cased. A letter and its lower-case
character give the same answers (`isIgnorable_of_lowerCase`, `isCased_of_lowerCase`), and
so the choice between the two small sigmas does not depend on how many of the letters
around them are in lower case already.

The reason is the same for all letters: each of them is cased and not case-ignorable, and
so is its lower-case character. This is read off the tables by intervals. A run lies in
one interval of cased characters and meets no interval of case-ignorable ones, and the
codes to which it moves do likewise (`Run.isCasedThroughout`). One run has gaps without a
character between its codes, and there the codes are looked at one by one.
-/

set_option autoImplicit false

namespace LowerComments.Letter

/-! ## Stretches of codes -/

/-- All codes from `low` to `high` lie in one of the intervals. -/
def Intervals.cover (intervals : Intervals) (low high : Nat) : Bool :=
  intervals.any fun interval => Nat.ble interval.1 low && Nat.ble high interval.2

/-- No code from `low` to `high` lies in any of the intervals, which are in ascending order: the
search ends at the first one behind. -/
def Intervals.miss (low high : Nat) : Intervals → Bool
  | [] => true
  | interval :: rest =>
    !Nat.ble interval.1 high || (!Nat.ble low interval.2 && Intervals.miss low high rest)

variable {intervals : Intervals} {low high code : Nat}

theorem Intervals.has_of_cover (covered : intervals.cover low high = true) (above : low ≤ code)
    (below : code ≤ high) : intervals.has code = true := by
  obtain ⟨interval, member, around⟩ := List.any_eq_true.mp covered
  simp only [Bool.and_eq_true, Nat.ble_eq] at around
  refine List.any_eq_true.mpr ⟨interval, member, ?_⟩
  simp only [Bool.and_eq_true, decide_eq_true_eq]
  omega

theorem Intervals.not_has_of_miss
    (ascending : intervals.Pairwise fun earlier later => earlier.1 ≤ later.1)
    (missed : Intervals.miss low high intervals = true) (above : low ≤ code)
    (below : code ≤ high) : intervals.has code = false := by
  refine List.any_eq_false.mpr fun interval member => ?_
  simp only [Bool.and_eq_true, decide_eq_true_eq]
  induction intervals with
  | nil => exact absurd member List.not_mem_nil
  | cons first rest ih =>
    obtain ⟨least, later⟩ := List.pairwise_cons.mp ascending
    simp only [Intervals.miss, Bool.or_eq_true, Bool.and_eq_true, Bool.not_eq_true',
      ← Bool.not_eq_true, Nat.ble_eq] at missed
    rcases missed with behind | ⟨before, others⟩
    · -- All intervals from here on start behind the stretch.
      have starts : first.1 ≤ interval.1 := by
        rcases List.mem_cons.mp member with rfl | listed
        · exact Nat.le_refl _
        · exact least interval listed
      omega
    · rcases List.mem_cons.mp member with rfl | listed
      · omega
      · exact ih later others listed

theorem ignorableIntervals_ascending :
    ignorableIntervals.Pairwise fun earlier later => earlier.1 ≤ later.1 := by
  have chain : ignorableIntervals.IsChain fun earlier later => earlier.1 ≤ later.1 := by
    decide +kernel
  exact List.isChain_iff_pairwise.mp chain

/-- All codes from `low` to `high` are codes of cased characters that are not case-ignorable. -/
def isCasedStretch (low high : Nat) : Bool :=
  casedIntervals.cover low high && Intervals.miss low high ignorableIntervals

/-- The codes of the run and those to which it moves are codes of cased characters that are not
case-ignorable. The ends of the run tell, or each of its codes is looked at by itself. -/
def Run.isCasedThroughout (run : Run) : Bool :=
  isCasedStretch (run.move run.first) (run.move run.last) &&
    (isCasedStretch run.first run.last ||
      (List.range (run.last + 1 - run.first)).all fun offset =>
        !run.covers (run.first + offset) ||
          isCasedStretch (run.first + offset) (run.first + offset))

theorem lowerRuns_cased : (lowerRuns.all fun run => run.isCasedThroughout) = true := by
  decide +kernel

/-! ## Letters and their lower-case characters -/

/-- A cased character at which the search for a neighbour stops. -/
structure StopsCased (letter : Char) : Prop where
  cased : isCased letter = true
  plain : isIgnorable letter = false

theorem stopsCased_of_stretch {letter : Char} (stretch : isCasedStretch low high = true)
    (above : low ≤ letter.toNat) (below : letter.toNat ≤ high) : StopsCased letter := by
  obtain ⟨cover, miss⟩ := Bool.and_eq_true_iff.mp stretch
  exact ⟨Intervals.has_of_cover cover above below,
    Intervals.not_has_of_miss ignorableIntervals_ascending miss above below⟩

/-- **A letter that lower-casing changes stops the search as a cased one**, and so does what it
becomes. -/
theorem stopsCased_of_lowerCode? {letter : Char} {moved : Nat}
    (lower : lowerCode? letter.toNat = some moved) :
    StopsCased letter ∧ StopsCased (Char.ofNat moved) := by
  have valid := isValidChar_of_lowerCode? lower
  obtain ⟨run, member, covered, rfl⟩ := exists_run_of_lowerCode? lower
  obtain ⟨others, own⟩ :=
    Bool.and_eq_true_iff.mp (List.all_eq_true.mp lowerRuns_cased run member)
  obtain ⟨above, below, _⟩ := Run.covers_iff.mp covered
  obtain ⟨lower, upper⟩ := Run.move_bounds covered
  refine ⟨?_, stopsCased_of_stretch others ?_ ?_⟩
  · rcases Bool.or_eq_true_iff.mp own with whole | single
    · exact stopsCased_of_stretch whole above below
    · have here := List.all_eq_true.mp single (letter.toNat - run.first)
        (List.mem_range.mpr (by omega))
      rw [Nat.add_sub_cancel' above, covered, Bool.not_true, Bool.false_or] at here
      exact stopsCased_of_stretch here (Nat.le_refl _) (Nat.le_refl _)
  · rwa [toNat_ofNat valid]
  · rwa [toNat_ofNat valid]

/-- **A letter and its lower-case character are both cased or both not.** -/
theorem isCased_of_lowerCase {letter lower : Char} (single : lowerCase letter = [lower]) :
    isCased lower = isCased letter := by
  rcases lowerCase_cases single with rfl | ⟨moved, found, rfl⟩
  · rfl
  · obtain ⟨own, other⟩ := stopsCased_of_lowerCode? found
    rw [own.cased, other.cased]

/-- **A letter and its lower-case character are both case-ignorable or both not.** -/
theorem isIgnorable_of_lowerCase {letter lower : Char} (single : lowerCase letter = [lower]) :
    isIgnorable lower = isIgnorable letter := by
  rcases lowerCase_cases single with rfl | ⟨moved, found, rfl⟩
  · rfl
  · obtain ⟨own, other⟩ := stopsCased_of_lowerCode? found
    rw [own.plain, other.plain]

end LowerComments.Letter
