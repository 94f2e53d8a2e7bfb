import LowerComments.Proofs.Comment.Lines

/-!
# Each line by itself

What the lines of a text are is said by `LinesOf`, which goes along the text line feed by
line feed and does not mention how it is cut. A text has lines in one way only
(`linesOf_iff`), and there is one for each line feed and one more when something stands
behind the last of them (`length_splitLines`).

Lower-casing the comments of a text treats its lines one by one. The result is a plain
concatenation, so its lines have to be found again, and they are found where they were put:
for every marker, one with a line feed in it included, no character becomes a line feed and
no line feed becomes another character (`lineFeeds_lowerComments`). The counts are those of
the lines and of the places where the lines before and after are different
(`lowerComments_by_lines`).
-/

set_option autoImplicit false

namespace LowerComments.Comment

/-! ## What the lines of a text are -/

/-- These are the lines of the text, each with its line feed. -/
inductive LinesOf : List Char → List (List Char) → Prop where
  /-- A text without characters has no lines. -/
  | empty : LinesOf [] []
  /-- Characters without a line feed are one line. -/
  | unended (body : List Char) (nonempty : body ≠ []) (unfed : '\n' ∉ body) :
    LinesOf body [body]
  /-- The first line feed ends the first line. -/
  | ended (body rest : List Char) (lines : List (List Char)) (unfed : '\n' ∉ body)
    (others : LinesOf rest lines) : LinesOf (body ++ '\n' :: rest) ((body ++ ['\n']) :: lines)

/-- **A text is cut into its lines**, and it has no others. -/
theorem linesOf_iff {text : List Char} {lines : List (List Char)} :
    LinesOf text lines ↔ lines = splitLines text := by
  constructor
  · intro cut
    induction cut with
    | empty => rfl
    | unended body nonempty unfed => rw [splitLines_unended nonempty unfed]
    | ended body rest lines unfed _ ih => rw [splitLines_ended unfed, ih]
  · rintro rfl
    induction text using line_induction with
    | empty => exact .empty
    | unended body nonempty unfed =>
      rw [splitLines_unended nonempty unfed]
      exact .unended body nonempty unfed
    | ended body rest unfed ih =>
      rw [splitLines_ended unfed]
      exact .ended body rest _ unfed ih

/-- A text has a line for each line feed, and one more when it does not end in a line feed. -/
theorem length_splitLines (text : List Char) :
    (splitLines text).length =
      text.count '\n' + if text = [] ∨ text.getLast? = some '\n' then 0 else 1 := by
  induction text using line_induction with
  | empty => rfl
  | unended body nonempty unfed =>
    have open' : body.getLast? ≠ some '\n' := fun fed => unfed (List.mem_of_getLast? fed)
    rw [splitLines_unended nonempty unfed, List.count_eq_zero_of_not_mem unfed,
      if_neg (not_or.mpr ⟨nonempty, open'⟩)]
    rfl
  | ended body rest unfed ih =>
    have last : (body ++ '\n' :: rest = [] ∨ (body ++ '\n' :: rest).getLast? = some '\n') ↔
        (rest = [] ∨ rest.getLast? = some '\n') := by
      by_cases blank : rest = []
      · simp [blank]
      · simp [blank, List.getLast?_append, List.getLast?_cons, List.getLast?_eq_some_getLast blank]
    rw [splitLines_ended unfed, List.length_cons, ih, List.count_append, List.count_cons_self,
      List.count_eq_zero_of_not_mem unfed]
    simp only [last]
    omega

/-! ## Where lines end -/

theorem getElem?_eq_lineFeed_iff {text : List Char} {position : Nat} :
    text[position]? = some '\n' ↔ (lineFeeds text)[position]? = some true := by
  rw [lineFeeds, List.getElem?_map, Option.map_eq_some_iff]
  simp

theorem getLast?_eq_lineFeed_iff {line : List Char} :
    line.getLast? = some '\n' ↔ (lineFeeds line).getLast? = some true := by
  rw [lineFeeds, List.getLast?_map, Option.map_eq_some_iff]
  simp

/-- A line in lower case ends in a line feed exactly when the line does. -/
theorem getLast?_lowerLine_eq_lineFeed_iff (marker line : List Char) :
    (lowerLine marker line).getLast? = some '\n' ↔ line.getLast? = some '\n' := by
  rw [getLast?_eq_lineFeed_iff, getLast?_eq_lineFeed_iff, lineFeeds_lowerLine]

/-- **Line feeds stay where they are in a text**, whatever the marker. -/
theorem lineFeeds_lowerComments (marker text : List Char) :
    lineFeeds (lowerComments marker text).text = lineFeeds text := by
  have along (lines : List (List Char)) :
      lineFeeds (lines.flatMap (lowerLine marker)) = lineFeeds lines.flatten := by
    induction lines with
    | nil => rfl
    | cons line lines ih =>
      rw [List.flatMap_cons, List.flatten_cons, lineFeeds_append, lineFeeds_append,
        lineFeeds_lowerLine, ih]
  have whole := along (splitLines text)
  rwa [flatten_splitLines] at whole

/-! ## The lines that change -/

/-- The places at which two lists of lines have different lines. -/
def differences (lines others : List (List Char)) : Nat :=
  (List.range lines.length).countP fun index => lines[index]? ≠ others[index]?

theorem differences_cons (line other : List Char) (lines others : List (List Char)) :
    differences (line :: lines) (other :: others) =
      differences lines others + if line ≠ other then 1 else 0 := by
  rw [differences, List.length_cons, List.range_succ_eq_map, List.countP_cons, List.countP_map]
  simp [differences, Function.comp_def]

/-- The lines that change are the differences that the change makes. -/
theorem countP_lowerLine? (marker : List Char) (lines : List (List Char)) :
    (lines.countP fun line => (lowerLine? marker line).isSome) =
      differences lines (lines.map (lowerLine marker)) := by
  induction lines with
  | nil => rfl
  | cons line lines ih =>
    have changed : (lowerLine? marker line).isSome = true ↔ line ≠ lowerLine marker line := by
      rw [Option.isSome_iff_ne_none, ne_eq, lowerLine?_eq_none_iff, ne_comm]
    rw [List.countP_cons, List.map_cons, differences_cons, ih]
    simp only [changed]

/-- No line changes exactly when the text stays as it is. -/
theorem changedLines_eq_zero_iff (marker text : List Char) :
    (lowerComments marker text).changedLines = 0 ↔ (lowerComments marker text).text = text := by
  have lines := splitLines_lowerComments marker text
  have stays : (lowerComments marker text).changedLines = 0 ↔
      (splitLines text).map (lowerLine marker) = (splitLines text).map id := by
    simp only [lowerComments, List.countP_eq_zero, Option.not_isSome_iff_eq_none,
      lowerLine?_eq_none_iff, List.map_inj_left, id_eq]
  rw [stays, ← lines, List.map_id]
  constructor
  · intro same
    rw [← flatten_splitLines (lowerComments marker text).text, same, flatten_splitLines]
  · intro same
    rw [same]

/-! ## The whole text -/

/-- **Lower-casing the comments of a text is done line by line.** Cutting the result after its line
feeds gives the lines of the text, each in lower case by itself, so that the line at a place
depends on the line that was there and on no other. A line ends in a line feed exactly when it
did before, and all line feeds of the text stay where they are. The counts are the number of
lines, told by the line feeds of the text, and the number of places at which the lines before and
after differ. -/
theorem lowerComments_by_lines (marker text : List Char) :
    let lowered := lowerComments marker text
    (∀ lines, LinesOf text lines ↔ lines = splitLines text) ∧
    (∀ lines, LinesOf lowered.text lines ↔ lines = (splitLines text).map (lowerLine marker)) ∧
    (∀ index : Nat, (splitLines lowered.text)[index]? =
      ((splitLines text)[index]?).map (lowerLine marker)) ∧
    (∀ line, (lowerLine marker line).getLast? = some '\n' ↔ line.getLast? = some '\n') ∧
    (∀ position : Nat, lowered.text[position]? = some '\n' ↔ text[position]? = some '\n') ∧
    (lowered.text = [] ↔ text = []) ∧
    lowered.lines = (splitLines text).length ∧
    lowered.lines = text.count '\n' + (if text = [] ∨ text.getLast? = some '\n' then 0 else 1) ∧
    lowered.changedLines = differences (splitLines text) (splitLines lowered.text) := by
  intro lowered
  have lines : splitLines lowered.text = (splitLines text).map (lowerLine marker) :=
    splitLines_lowerComments marker text
  refine ⟨fun _ => linesOf_iff, fun _ => ?_, fun index => ?_,
    getLast?_lowerLine_eq_lineFeed_iff marker, fun position => ?_, ?_, rfl,
    length_splitLines text, ?_⟩
  · rw [linesOf_iff, lines]
  · rw [lines, List.getElem?_map]
  · rw [getElem?_eq_lineFeed_iff, getElem?_eq_lineFeed_iff, lineFeeds_lowerComments]
  · rw [← List.length_eq_zero_iff, length_lowerComments, List.length_eq_zero_iff]
  · rw [lines, ← countP_lowerLine?]
    rfl

/-- A marker with a line feed in it opens no comment, since no line goes on behind its line feed. -/
example :
    lowerComments ['\n', 'A'] "A\nA\r\nA".toList = ⟨"A\nA\r\nA".toList, 3, 0⟩ := by
  decide +kernel

end LowerComments.Comment
