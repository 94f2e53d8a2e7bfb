import LowerComments.Proofs.Comment.Lines
import Mathlib.Data.List.Basic

/-!
# Line by line is all at once

The comments of a text are lower-cased span by span, and a sigma sees only its span.
Lower-casing the whole text at once would let it see further, across the marker to
the code before it and across the line feed to the next line. The characters inside
a comment come out the same either way (`getElem?_lowerComments_hyphens`).

The reason is that the scan for the neighbours of a sigma stops at the first
character that is not case-ignorable. A hyphen is such a character and so is a line
feed: a sigma behind the marker never looks past the marker, and one before a line
feed never looks past it. What matters of the marker is collected in `Fence`; any
marker of that kind would do.
-/

set_option autoImplicit false

namespace LowerComments.Comment

open LowerComments.Letter

/-- A marker behind which no sigma sees what stands before it: its characters are settled, none
of them is a line feed, and the scan for a neighbour stops at one of them. -/
structure Fence (marker : List Char) : Prop where
  settled : ∀ letter ∈ marker, Settled letter
  unfed : '\n' ∉ marker
  stops : ∃ letter ∈ marker, isIgnorable letter = false

theorem fence_hyphens : Fence ['-', '-'] where
  settled := settled_hyphens
  unfed := by decide
  stops := ⟨'-', by decide, by decide +kernel⟩

/-- A marker starts at the position or before it, with no line feed from there up to the
position. -/
def InComment (marker text : List Char) (position : Nat) : Prop :=
  ∃ start ≤ position, marker <+: text.drop start ∧ '\n' ∉ (text.take position).drop start

/-! ## How far a sigma sees -/

/-- The scan for a neighbour does not look past a character that is not case-ignorable. -/
theorem nearest?_append {side : List Char} (stops : ∃ letter ∈ side, isIgnorable letter = false)
    (more : List Char) : nearest? (side ++ more) = nearest? side := by
  obtain ⟨letter, member, plain⟩ := stops
  unfold nearest?
  rw [List.find?_append]
  cases found : side.find? fun letter => !isIgnorable letter with
  | none =>
    have ignorable := List.find?_eq_none.mp found letter member
    simp [plain] at ignorable
  | some first => rfl

/-- A character is lower-cased the same way in a longer text when it is settled, or when the scan
stops on either side before the text that was added. -/
theorem lowerLetter_append {before after front back : List Char} {letter : Char}
    (near : Settled letter ∨ (∃ other ∈ before, isIgnorable other = false) ∧
      ((∃ other ∈ after, isIgnorable other = false) ∨ back = [])) :
    lowerLetter (before ++ front) letter (after ++ back) = lowerLetter before letter after := by
  rcases near with settled | ⟨stops, stops' | rfl⟩
  · rw [lowerLetter_of_settled settled, lowerLetter_of_settled settled]
  · unfold lowerLetter sigmaBetween endsWord facesCased
    rw [nearest?_append stops, nearest?_append stops']
  · unfold lowerLetter sigmaBetween endsWord facesCased
    rw [nearest?_append stops, List.append_nil]

theorem lineFeed_stops {side : List Char} (fed : '\n' ∈ side) :
    ∃ letter ∈ side, isIgnorable letter = false :=
  ⟨'\n', fed, by decide +kernel⟩

/-! ## Comments and lines -/

section Lines

variable {marker body feed rest : List Char} {position : Nat}

/-- Before the end of a line that starts a text, the text has the comments of the line. -/
theorem inComment_line_iff (unfed : '\n' ∉ marker)
    (ends : feed = ['\n'] ∨ feed = [] ∧ rest = []) (inside : position < (body ++ feed).length) :
    InComment marker (body ++ feed ++ rest) position ↔
      InComment marker (body ++ feed) position := by
  have sameTake : (body ++ feed ++ rest).take position = (body ++ feed).take position :=
    List.take_append_of_le_length (Nat.le_of_lt inside)
  have sameDrop (start : Nat) (early : start ≤ position) :
      (body ++ feed ++ rest).drop start = (body ++ feed).drop start ++ rest :=
    List.drop_append_of_le_length (Nat.le_trans early (Nat.le_of_lt inside))
  unfold InComment
  rw [sameTake]
  refine exists_congr fun start => and_congr_right fun early => and_congr_left fun _ => ?_
  rw [sameDrop start early]
  constructor
  · intro occurs
    rcases ends with rfl | ⟨rfl, rfl⟩
    · refine List.prefix_of_prefix_length_le occurs (List.prefix_append _ _) ?_
      -- A marker that reached into the next line would have the line feed in it.
      by_contra long
      have whole := List.prefix_of_prefix_length_le (List.prefix_append _ _) occurs
        (Nat.le_of_not_le long)
      refine unfed (whole.subset ?_)
      rw [List.drop_append_of_le_length
        (by simp only [List.length_append, List.length_singleton] at inside; omega)]
      exact List.mem_append_right _ (List.mem_singleton_self _)
    · rwa [List.append_nil] at occurs
  · intro occurs
    exact occurs.trans (List.prefix_append _ _)

/-- Behind a line, the text has the comments of what follows the line. -/
theorem inComment_shift_iff :
    InComment marker (body ++ ['\n'] ++ rest) ((body ++ ['\n']).length + position) ↔
      InComment marker rest position := by
  constructor
  · rintro ⟨start, early, occurs, unbroken⟩
    rw [List.take_length_add_append] at unbroken
    by_cases behind : (body ++ ['\n']).length ≤ start
    · obtain ⟨offset, rfl⟩ := Nat.exists_eq_add_of_le behind
      rw [List.drop_length_add_append] at occurs unbroken
      exact ⟨offset, Nat.le_of_add_le_add_left early, occurs, unbroken⟩
    · refine absurd ?_ unbroken
      rw [List.append_assoc, List.drop_append_of_le_length
        (by simp only [List.length_append, List.length_singleton] at behind; omega)]
      exact List.mem_append_right _ (List.mem_append_left _ (List.mem_singleton_self _))
  · rintro ⟨offset, early, occurs, unbroken⟩
    refine ⟨(body ++ ['\n']).length + offset, Nat.add_le_add_left early _, ?_, ?_⟩
    · rwa [List.drop_length_add_append]
    · rwa [List.take_length_add_append, List.drop_length_add_append]

/-- Inside a line that is cut, the comment is what stands behind the cut. -/
theorem inComment_iff_of_cut {code span : List Char} (unfed : '\n' ∉ body)
    (ends : feed = ['\n'] ∨ feed = []) (inside : position < (body ++ feed).length)
    (cut : splitAtMarker? marker (body ++ feed) = some (code, span)) :
    InComment marker (body ++ feed) position ↔ code.length ≤ position := by
  obtain ⟨whole, occurs, first⟩ := splitAtMarker?_eq_some_iff.mp cut
  constructor
  · rintro ⟨start, early, found, -⟩
    by_contra before
    exact first start (by omega) found
  · intro behind
    refine ⟨code.length, behind, ?_, fun fed => unfed ?_⟩
    · rwa [whole, List.drop_append_length]
    · -- All characters of the line before the position belong to the body.
      have short : position ≤ body.length := by
        rcases ends with rfl | rfl
        · simp only [List.length_append, List.length_singleton] at inside
          omega
        · simpa using Nat.le_of_lt inside
      rw [List.take_append_of_le_length short] at fed
      exact List.mem_of_mem_take (List.mem_of_mem_drop fed)

end Lines

/-! ## Line by line -/

section Positions

variable {marker : List Char}

/-- What stands around a position of a span that a fence opens: a settled character, or one for
which the scan stops in the span on the one side and, unless nothing follows the span, on the
other side too. -/
theorem Fence.around {tail rest : List Char} (fence : Fence marker)
    (ends : (marker ++ tail).getLast? = some '\n' ∨ rest = []) {position : Nat}
    (inside : position < (marker ++ tail).length) :
    Settled (marker ++ tail)[position] ∨
      (∃ other ∈ ((marker ++ tail).take position).reverse, isIgnorable other = false) ∧
        ((∃ other ∈ (marker ++ tail).drop (position + 1), isIgnorable other = false) ∨
          rest = []) := by
  by_cases early : position < marker.length
  · refine .inl (fence.settled _ ?_)
    rw [List.getElem_append_left early]
    exact List.getElem_mem early
  · by_cases last : (marker ++ tail)[position] = '\n'
    · exact .inl (last ▸ by decide +kernel)
    · refine .inr ⟨?_, ?_⟩
      · obtain ⟨letter, member, plain⟩ := fence.stops
        refine ⟨letter, ?_, plain⟩
        rw [List.mem_reverse, List.take_append]
        exact List.mem_append_left _ (by rwa [List.take_of_length_le (by omega)])
      · refine ends.imp_left fun fed => lineFeed_stops (List.mem_of_getLast? ?_)
        -- The last character is the line feed, and the one at the position is another one.
        have later : position + 1 < (marker ++ tail).length := by
          by_contra final
          have same : position = (marker ++ tail).length - 1 := by omega
          rw [List.getLast?_eq_getElem?, ← same, List.getElem?_eq_getElem inside] at fed
          exact last (Option.some.inj fed)
        rw [List.getLast?_drop, if_neg (by omega), fed]

/-- The span of a line and the rest of the text behind the line, at one position of the span:
the character comes out as in the whole text. -/
theorem getElem?_lowerSpan_eq {span rest : List Char} (fence : Fence marker)
    (occurs : marker <+: span) (ends : span.getLast? = some '\n' ∨ rest = [])
    (passed : List Char) {position : Nat} (inside : position < span.length) :
    (lowerSpan span)[position]? = (lowerFrom passed (span ++ rest))[position]? := by
  have letterAt : span[position]? = some span[position] := List.getElem?_eq_getElem inside
  have letterAt' : (span ++ rest)[position]? = some span[position] := by
    rw [List.getElem?_append_left inside, letterAt]
  unfold lowerSpan
  rw [getElem?_lowerFrom, getElem?_lowerFrom, letterAt, letterAt', Option.map_some,
    Option.map_some, List.append_nil, List.take_append_of_le_length (Nat.le_of_lt inside),
    List.drop_append_of_le_length inside]
  obtain ⟨tail, rfl⟩ := occurs
  exact congrArg some (lowerLetter_append (fence.around ends inside)).symm

/-- Behind the characters at its head, a text is lower-cased as the rest with these characters
passed. -/
theorem getElem?_lowerFrom_append (passed code tail : List Char) (offset : Nat) :
    (lowerFrom passed (code ++ tail))[code.length + offset]? =
      (lowerFrom (code.reverse ++ passed) tail)[offset]? := by
  rw [getElem?_lowerFrom, getElem?_lowerFrom, List.getElem?_append_right (Nat.le_add_right ..),
    Nat.add_sub_cancel_left, List.take_length_add_append, Nat.add_assoc,
    List.drop_length_add_append, List.reverse_append, List.append_assoc]

/-- One line at the head of a text, at one of its positions: the whole text in lower case inside
a comment, the line itself elsewhere. -/
theorem getElem?_lowerLine_eq {body : List Char} (feed rest : List Char) (fence : Fence marker)
    (unfed : '\n' ∉ body) (ends : feed = ['\n'] ∨ feed = [] ∧ rest = [])
    (passed : List Char) {position : Nat} (inside : position < (body ++ feed).length) :
    (InComment marker (body ++ feed) position →
        (lowerLine marker (body ++ feed))[position]? =
          (lowerFrom passed (body ++ feed ++ rest))[position]?) ∧
      (¬ InComment marker (body ++ feed) position →
        (lowerLine marker (body ++ feed))[position]? = (body ++ feed)[position]?) := by
  cases cut : splitAtMarker? marker (body ++ feed) with
  | none =>
    rw [lowerLine_of_none cut]
    refine ⟨fun ⟨start, _, occurs, _⟩ => ?_, fun _ => rfl⟩
    exact absurd occurs (splitAtMarker?_eq_none_iff.mp cut start)
  | some parts =>
    obtain ⟨code, span⟩ := parts
    rw [inComment_iff_of_cut unfed (ends.imp_right And.left) inside cut, lowerLine_of_some cut]
    obtain ⟨whole, occurs, _⟩ := splitAtMarker?_eq_some_iff.mp cut
    constructor
    · intro behind
      obtain ⟨offset, rfl⟩ := Nat.exists_eq_add_of_le behind
      rw [whole, List.length_append] at inside
      have spanEnds : span.getLast? = some '\n' ∨ rest = [] := by
        refine ends.imp (fun fed => ?_) And.right
        have last : (code ++ span).getLast? = some '\n' := by
          rw [← whole, fed, List.getLast?_concat]
        have nonempty : span ≠ [] := by
          rintro rfl
          exact absurd inside (Nat.not_lt.mpr (Nat.le_add_right ..))
        rwa [List.getLast?_append_of_ne_nil _ nonempty] at last
      rw [whole, List.append_assoc, getElem?_lowerFrom_append,
        List.getElem?_append_right (Nat.le_add_right ..), Nat.add_sub_cancel_left]
      exact getElem?_lowerSpan_eq fence occurs spanEnds (code.reverse ++ passed) (by omega)
    · intro before
      have early : position < code.length := Nat.lt_of_not_le before
      rw [whole, List.getElem?_append_left early, List.getElem?_append_left early]

/-- A text at one position, behind characters that were passed: the whole text in lower case
inside a comment, the text itself elsewhere. The induction is along the lines, and what was
passed grows by a line at each step. -/
theorem getElem?_lowerComments_eq (fence : Fence marker) (text passed : List Char)
    (position : Nat) :
    (InComment marker text position →
        (lowerComments marker text).text[position]? = (lowerFrom passed text)[position]?) ∧
      (¬ InComment marker text position →
        (lowerComments marker text).text[position]? = text[position]?) := by
  induction text using line_induction generalizing passed position with
  | empty => exact ⟨fun _ => rfl, fun _ => rfl⟩
  | unended body nonempty unfed =>
    have single : (lowerComments marker body).text = lowerLine marker body := by
      rw [lowerComments_unended nonempty unfed]
    rw [single]
    by_cases inside : position < body.length
    · have line := getElem?_lowerLine_eq [] [] fence unfed (.inr ⟨rfl, rfl⟩) passed
        (by simpa using inside)
      simpa only [List.append_nil] using line
    · have beyond : body.length ≤ position := Nat.le_of_not_lt inside
      rw [List.getElem?_eq_none (by simpa using beyond),
        List.getElem?_eq_none (by simpa using beyond), List.getElem?_eq_none beyond]
      exact ⟨fun _ => rfl, fun _ => rfl⟩
  | ended body rest unfed ih =>
    have shape : body ++ '\n' :: rest = body ++ ['\n'] ++ rest := List.append_cons ..
    have parts : (lowerComments marker (body ++ '\n' :: rest)).text =
        lowerLine marker (body ++ ['\n']) ++ (lowerComments marker rest).text := by
      rw [lowerComments_ended unfed]
    rw [parts, shape]
    by_cases inside : position < (body ++ ['\n']).length
    · have line := getElem?_lowerLine_eq ['\n'] rest fence unfed (.inl rfl) passed inside
      rw [inComment_line_iff fence.unfed (.inl rfl) inside,
        List.getElem?_append_left (by simpa using inside), List.getElem?_append_left inside]
      exact line
    · obtain ⟨offset, rfl⟩ := Nat.exists_eq_add_of_le (Nat.le_of_not_lt inside)
      rw [inComment_shift_iff, getElem?_lowerFrom_append,
        List.getElem?_append_right (Nat.le_add_right ..),
        List.getElem?_append_right (by rw [length_lowerLine]; exact Nat.le_add_right ..),
        length_lowerLine, Nat.add_sub_cancel_left]
      exact ih ((body ++ ['\n']).reverse ++ passed) offset

end Positions

/-- **Lower-casing line by line and span by span is lower-casing the whole text, inside
comments.** The result has as many characters as the text. The character at a position is that
of the whole text in lower case when the position is in a comment, and otherwise it is the one
that stands there. -/
theorem getElem?_lowerComments_hyphens (text : List Char) :
    (lowerComments ['-', '-'] text).text.length = text.length ∧
      ∀ position,
        (InComment ['-', '-'] text position →
          (lowerComments ['-', '-'] text).text[position]? = (lowerSpan text)[position]?) ∧
        (¬ InComment ['-', '-'] text position →
          (lowerComments ['-', '-'] text).text[position]? = text[position]?) :=
  ⟨length_lowerComments _ text, getElem?_lowerComments_eq fence_hyphens text []⟩

end LowerComments.Comment
