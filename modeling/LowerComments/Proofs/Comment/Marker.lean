import LowerComments.Comment.Line
import LowerComments.Proofs.Comment.Span
import LowerComments.Utf8.Encode

/-!
# The first marker of a line

A line is cut where the marker occurs first (`splitAtMarker?_eq_some_iff`): the
span starts with the marker, and the marker occurs at no earlier position, not even
where it would reach across the cut.

What stands behind the marker in the span does not matter for the cut
(`splitAtMarker?_of_opens`): an earlier occurrence would lie in the code and the
marker that opens the span, and the line would have it whatever follows.

Lower-casing the comment does not move the cut when the characters of the marker
are settled (`splitAtMarker?_lowerLine`), since the code stays and the marker at the
head of the span stays. For a marker with a letter that is folded this fails: `Aa`
occurs in `AAa` at its second character and in the result `Aaa` at its first.
-/

set_option autoImplicit false

namespace LowerComments.Comment

open LowerComments.Letter

variable {marker line code span : List Char}

/-- The byte index at which the marker occurs first in a line. -/
def markerIndex? (marker line : List Char) : Option Nat :=
  (splitAtMarker? marker line).map fun parts => (Utf8.encode parts.1).length

/-! ## The cut -/

/-- **A line is cut at the first occurrence of the marker.** -/
theorem splitAtMarker?_eq_some_iff :
    splitAtMarker? marker line = some (code, span) ↔
      line = code ++ span ∧ marker <+: span ∧
        ∀ position < code.length, ¬ marker <+: line.drop position := by
  induction line generalizing code with
  | nil =>
    constructor
    · intro cut
      unfold splitAtMarker? at cut
      split at cut
      · next empty =>
        obtain ⟨rfl, rfl⟩ : [] = code ∧ [] = span := by simpa using cut
        exact ⟨rfl, List.isEmpty_iff.mp empty ▸ List.nil_prefix,
          fun position small => absurd small (Nat.not_lt_zero position)⟩
      · exact absurd cut (by simp)
    · rintro ⟨whole, occurs, -⟩
      obtain ⟨rfl, rfl⟩ := List.append_eq_nil_iff.mp whole.symm
      rw [List.prefix_nil.mp occurs]
      rfl
  | cons letter rest ih =>
    unfold splitAtMarker?
    by_cases here : marker.isPrefixOf (letter :: rest) = true
    · rw [if_pos here]
      have occurs := List.isPrefixOf_iff_prefix.mp here
      constructor
      · intro cut
        obtain ⟨rfl, rfl⟩ : [] = code ∧ letter :: rest = span := by simpa using cut
        exact ⟨rfl, occurs, fun position small => absurd small (Nat.not_lt_zero position)⟩
      · rintro ⟨whole, -, first⟩
        cases code with
        | nil => rw [whole, List.nil_append]
        | cons other code => exact absurd occurs (first 0 (Nat.zero_lt_succ _))
    · rw [if_neg here]
      have missed : ¬ marker <+: letter :: rest := fun occurs =>
        here (List.isPrefixOf_iff_prefix.mpr occurs)
      constructor
      · intro cut
        obtain ⟨⟨inner, tail⟩, found, same⟩ := Option.map_eq_some_iff.mp cut
        obtain ⟨rfl, rfl⟩ : letter :: inner = code ∧ tail = span := by simpa using same
        obtain ⟨whole, occurs, first⟩ := ih.mp found
        refine ⟨by rw [whole, List.cons_append], occurs, fun position small => ?_⟩
        cases position with
        | zero => exact missed
        | succ position => exact first position (Nat.lt_of_succ_lt_succ small)
      · rintro ⟨whole, occurs, first⟩
        cases code with
        | nil => exact absurd (whole ▸ occurs) missed
        | cons other inner =>
          obtain ⟨rfl, behind⟩ := List.cons.inj whole
          refine Option.map_eq_some_iff.mpr ⟨(inner, span), ?_, rfl⟩
          exact ih.mpr ⟨behind, occurs, fun position small =>
            first (position + 1) (Nat.succ_lt_succ small)⟩

/-- A line is not cut exactly when the marker occurs at none of its positions. -/
theorem splitAtMarker?_eq_none_iff :
    splitAtMarker? marker line = none ↔ ∀ position, ¬ marker <+: line.drop position := by
  induction line with
  | nil =>
    unfold splitAtMarker?
    simp
  | cons letter rest ih =>
    unfold splitAtMarker?
    by_cases here : marker.isPrefixOf (letter :: rest) = true
    · rw [if_pos here]
      constructor
      · intro cut
        exact absurd cut (by simp)
      · intro nowhere
        exact absurd (List.isPrefixOf_iff_prefix.mp here) (nowhere 0)
    · rw [if_neg here, Option.map_eq_none_iff, ih]
      constructor
      · intro nowhere position
        cases position with
        | zero => exact fun occurs => here (List.isPrefixOf_iff_prefix.mpr occurs)
        | succ position => exact nowhere position
      · exact fun nowhere position => nowhere (position + 1)

/-! ## The line in lower case -/

theorem lowerLine_of_none (uncut : splitAtMarker? marker line = none) :
    lowerLine marker line = line := by
  simp [lowerLine, lowerLine?, uncut]

theorem lowerLine_of_some (cut : splitAtMarker? marker line = some (code, span)) :
    lowerLine marker line = code ++ lowerSpan span := by
  have whole := (splitAtMarker?_eq_some_iff.mp cut).1
  unfold lowerLine lowerLine?
  rw [cut]
  by_cases same : lowerSpan span = span
  · simp [same, whole]
  · simp [same]

/-- **A line is answered as changed exactly when its lower-case form is another line.** -/
theorem lowerLine?_eq_none_iff : lowerLine? marker line = none ↔ lowerLine marker line = line := by
  cases cut : splitAtMarker? marker line with
  | none => simp [lowerLine, lowerLine?, cut]
  | some parts =>
    obtain ⟨code, span⟩ := parts
    have whole := (splitAtMarker?_eq_some_iff.mp cut).1
    rw [lowerLine_of_some cut]
    unfold lowerLine?
    rw [cut]
    by_cases same : lowerSpan span = span
    · simp [same, whole]
    · simp [same, whole]

@[simp] theorem length_lowerLine (marker line : List Char) :
    (lowerLine marker line).length = line.length := by
  cases cut : splitAtMarker? marker line with
  | none => rw [lowerLine_of_none cut]
  | some parts =>
    obtain ⟨code, span⟩ := parts
    rw [lowerLine_of_some cut, (splitAtMarker?_eq_some_iff.mp cut).1]
    simp

/-- Line feeds stay where they are in a line, whatever the marker. -/
theorem lineFeeds_lowerLine (marker line : List Char) :
    lineFeeds (lowerLine marker line) = lineFeeds line := by
  cases cut : splitAtMarker? marker line with
  | none => rw [lowerLine_of_none cut]
  | some parts =>
    obtain ⟨code, span⟩ := parts
    rw [lowerLine_of_some cut, (splitAtMarker?_eq_some_iff.mp cut).1, lineFeeds_append,
      lineFeeds_append]
    exact congrArg _ (lineFeeds_lowerFrom [] span)

/-! ## The cut of the result -/

/-- A marker of settled characters opens the lower-cased span that it opened. -/
theorem prefix_lowerSpan (settled : ∀ letter ∈ marker, Settled letter)
    (occurs : marker <+: span) : marker <+: lowerSpan span := by
  obtain ⟨rest, rfl⟩ := occurs
  unfold lowerSpan
  rw [lowerFrom_append_of_settled settled]
  exact List.prefix_append _ _

/-- **The cut of a line depends on the code and the marker alone**, not on what stands behind the
marker in the span. An occurrence of the marker in front of the cut ends in the code or in the
marker that opens the span, and these characters stay. -/
theorem splitAtMarker?_of_opens {other : List Char}
    (cut : splitAtMarker? marker (code ++ span) = some (code, span)) (opens : marker <+: other) :
    splitAtMarker? marker (code ++ other) = some (code, other) := by
  obtain ⟨-, occurs, first⟩ := splitAtMarker?_eq_some_iff.mp cut
  refine splitAtMarker?_eq_some_iff.mpr ⟨rfl, opens, fun position early found => ?_⟩
  refine first position early ?_
  obtain ⟨rest, rfl⟩ := occurs
  obtain ⟨tail, rfl⟩ := opens
  have shared (ending : List Char) :
      (code ++ (marker ++ ending)).drop position = (code ++ marker).drop position ++ ending := by
    rw [← List.append_assoc]
    exact List.drop_append_of_le_length (by simp only [List.length_append]; omega)
  rw [shared] at found ⊢
  -- The characters before the ending outnumber those of the marker, so the ending does not matter.
  have enough : marker.length ≤ ((code ++ marker).drop position).length := by
    simp only [List.length_drop, List.length_append]
    omega
  have inside := List.prefix_of_prefix_length_le found (List.prefix_append _ _) enough
  exact inside.trans (List.prefix_append _ _)

/-- **Lower-casing the comment of a line does not move its cut.** -/
theorem splitAtMarker?_lowerLine (settled : ∀ letter ∈ marker, Settled letter)
    (line : List Char) :
    splitAtMarker? marker (lowerLine marker line) =
      (splitAtMarker? marker line).map fun parts => (parts.1, lowerSpan parts.2) := by
  cases cut : splitAtMarker? marker line with
  | none => rw [lowerLine_of_none cut, cut, Option.map_none]
  | some parts =>
    obtain ⟨code, span⟩ := parts
    obtain ⟨rfl, occurs, -⟩ := splitAtMarker?_eq_some_iff.mp cut
    rw [lowerLine_of_some cut, Option.map_some]
    exact splitAtMarker?_of_opens cut (prefix_lowerSpan settled occurs)

/-- The first marker keeps its byte index. -/
theorem markerIndex?_lowerLine (settled : ∀ letter ∈ marker, Settled letter)
    (line : List Char) :
    markerIndex? marker (lowerLine marker line) = markerIndex? marker line := by
  unfold markerIndex?
  rw [splitAtMarker?_lowerLine settled, Option.map_map]
  rfl

/-- **Lower-casing the comment of a line twice is lower-casing it once.** -/
theorem lowerLine_lowerLine (settled : ∀ letter ∈ marker, Settled letter) (line : List Char) :
    lowerLine marker (lowerLine marker line) = lowerLine marker line := by
  cases cut : splitAtMarker? marker line with
  | none => rw [lowerLine_of_none cut, lowerLine_of_none cut]
  | some parts =>
    obtain ⟨code, span⟩ := parts
    have again := splitAtMarker?_lowerLine settled line
    rw [cut, Option.map_some] at again
    rw [lowerLine_of_some again, lowerLine_of_some cut, lowerSpan_lowerSpan]

end LowerComments.Comment
