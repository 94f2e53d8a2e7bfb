import LowerComments.Proofs.Comment.Lines

/-!
# A second pass changes nothing

Lower-casing the comments of a text is done in one pass, for every text and every
marker of settled characters. The shipped marker `--` is one, and so is the empty
one. The second pass cuts the same lines at the same places, finds only settled
characters behind the cuts, and so reports no line as changed.

For a marker with a letter that is folded a second pass may change more, since the
first one can make a marker that was not there.
-/

set_option autoImplicit false

namespace LowerComments.Comment

open LowerComments.Letter

variable {marker : List Char}

/-- No line of a text in lower case changes. -/
theorem lowerLine?_of_mem_lowerComments (settled : ∀ letter ∈ marker, Settled letter)
    {text line : List Char} (member : line ∈ splitLines (lowerComments marker text).text) :
    lowerLine? marker line = none := by
  rw [splitLines_lowerComments] at member
  obtain ⟨source, _, rfl⟩ := List.mem_map.mp member
  exact lowerLine?_eq_none_iff.mpr (lowerLine_lowerLine settled source)

/-- The text of a second pass is that of the first. -/
theorem text_lowerComments_lowerComments (settled : ∀ letter ∈ marker, Settled letter)
    (text : List Char) :
    (lowerComments marker (lowerComments marker text).text).text =
      (lowerComments marker text).text := by
  have same : ∀ line ∈ splitLines (lowerComments marker text).text,
      lowerLine marker line = line := fun line member =>
    lowerLine?_eq_none_iff.mp (lowerLine?_of_mem_lowerComments settled member)
  calc (lowerComments marker (lowerComments marker text).text).text
      = ((splitLines (lowerComments marker text).text).map (lowerLine marker)).flatten :=
        List.flatMap_def ..
    _ = (splitLines (lowerComments marker text).text).flatten := by
        rw [List.map_congr_left same, List.map_id']
    _ = (lowerComments marker text).text := flatten_splitLines _

/-- A second pass counts as many lines as the first. -/
theorem lines_lowerComments_lowerComments (marker text : List Char) :
    (lowerComments marker (lowerComments marker text).text).lines =
      (lowerComments marker text).lines := by
  rw [lines_lowerComments, splitLines_lowerComments, List.length_map, lines_lowerComments]

/-- A second pass counts no line as changed. -/
theorem changedLines_lowerComments_lowerComments (settled : ∀ letter ∈ marker, Settled letter)
    (text : List Char) :
    (lowerComments marker (lowerComments marker text).text).changedLines = 0 := by
  refine List.countP_eq_zero.mpr fun line member => ?_
  rw [lowerLine?_of_mem_lowerComments settled member]
  decide

/-- **Lower-casing comments is idempotent.** A second pass gives the text of the first with as
many lines and no changed one. Each line of the result is a line of the text in lower case, with
the first marker at the same byte index and only settled characters from there on. -/
theorem lowerComments_idempotent (settled : ∀ letter ∈ marker, Settled letter)
    (text : List Char) :
    lowerComments marker (lowerComments marker text).text =
        { lowerComments marker text with changedLines := 0 } ∧
      (∀ line ∈ splitLines (lowerComments marker text).text, lowerLine? marker line = none) ∧
      splitLines (lowerComments marker text).text = (splitLines text).map (lowerLine marker) ∧
      ∀ line ∈ splitLines text,
        markerIndex? marker (lowerLine marker line) = markerIndex? marker line ∧
          ∀ code span, splitAtMarker? marker (lowerLine marker line) = some (code, span) →
            ∀ letter ∈ span, Settled letter := by
  refine ⟨?_, fun line => lowerLine?_of_mem_lowerComments settled,
    splitLines_lowerComments marker text, fun line _ =>
      ⟨markerIndex?_lowerLine settled line, fun code span cut letter member => ?_⟩⟩
  · exact congr (congr (congrArg Lowered.mk (text_lowerComments_lowerComments settled text))
      (lines_lowerComments_lowerComments marker text))
      (changedLines_lowerComments_lowerComments settled text)
  · rw [splitAtMarker?_lowerLine settled] at cut
    obtain ⟨parts, _, same⟩ := Option.map_eq_some_iff.mp cut
    obtain ⟨-, rfl⟩ := Prod.mk.inj same
    exact settled_of_mem_lowerSpan member

/-- The shipped marker, on two lines with a comment of which one lacks its line feed. -/
theorem lowerComments_idempotent_hyphens :
    (∀ letter ∈ ['-', '-'], Settled letter) ∧
      lowerComments ['-', '-'] (lowerComments ['-', '-'] "A --B\n--ΟΔΟΣ".toList).text =
        { lowerComments ['-', '-'] "A --B\n--ΟΔΟΣ".toList with changedLines := 0 } :=
  ⟨settled_hyphens, (lowerComments_idempotent settled_hyphens _).1⟩

/-- With a marker of a capital and a small letter, the first pass makes an earlier marker, and
the second one folds the character in front of the first cut. -/
example :
    lowerLine ['A', 'a'] ['A', 'A', 'a'] = ['A', 'a', 'a'] ∧
      lowerLine ['A', 'a'] ['A', 'a', 'a'] = ['a', 'a', 'a'] := by
  decide +kernel

end LowerComments.Comment
