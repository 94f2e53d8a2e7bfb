import LowerComments.Comment.Text
import LowerComments.Proofs.Comment.Marker

/-!
# The lines of a text

A text is empty, or it is one line without a line feed, or it starts with a line
that a line feed ends. `line_induction` is the induction that goes with these three
shapes, and `splitLines` has one equation for each of them. Putting the lines
together gives the text back (`flatten_splitLines`).

A change to each line that leaves its line feeds where they are keeps the lines
apart: cutting the changed text gives the changed lines (`splitLines_flatMap`).
Lower-casing is such a change for every marker, even one with a line feed in it
(`splitLines_lowerComments`).
-/

set_option autoImplicit false

namespace LowerComments.Comment

/-! ## Induction along the lines -/

/-- A property of texts holds of all of them when it holds of the empty text, of every line
without a line feed, and of a text that starts with an ended line whenever it holds of the text
behind that line. -/
@[elab_as_elim]
theorem line_induction {motive : List Char → Prop} (empty : motive [])
    (unended : ∀ body, body ≠ [] → '\n' ∉ body → motive body)
    (ended : ∀ body rest, '\n' ∉ body → motive rest → motive (body ++ '\n' :: rest))
    (text : List Char) : motive text := by
  suffices along : ∀ body, '\n' ∉ body → motive (body ++ text) from along [] (by simp)
  induction text with
  | nil =>
    intro body unfed
    rw [List.append_nil]
    by_cases blank : body = []
    · rw [blank]
      exact empty
    · exact unended body blank unfed
  | cons letter rest ih =>
    intro body unfed
    by_cases fed : letter = '\n'
    · rw [fed]
      exact ended body rest unfed (ih [] (by simp))
    · rw [List.append_cons]
      refine ih (body ++ [letter]) ?_
      simp only [List.mem_append, List.mem_singleton, not_or]
      exact ⟨unfed, Ne.symm fed⟩

/-! ## Cutting -/

@[simp] theorem splitLines_nil : splitLines [] = [] := rfl

theorem splitLines_ended {body : List Char} (unfed : '\n' ∉ body) (rest : List Char) :
    splitLines (body ++ '\n' :: rest) = (body ++ ['\n']) :: splitLines rest := by
  induction body with
  | nil => simp [splitLines]
  | cons letter body ih =>
    obtain ⟨other, later⟩ := not_or.mp (mt List.mem_cons.mpr unfed)
    rw [List.cons_append, splitLines, if_neg (Ne.symm other), ih later]
    rfl

theorem splitLines_unended {body : List Char} (nonempty : body ≠ []) (unfed : '\n' ∉ body) :
    splitLines body = [body] := by
  induction body with
  | nil => exact absurd rfl nonempty
  | cons letter body ih =>
    obtain ⟨other, later⟩ := not_or.mp (mt List.mem_cons.mpr unfed)
    rw [splitLines, if_neg (Ne.symm other)]
    cases body with
    | nil => rfl
    | cons next body => rw [ih (List.cons_ne_nil next body) later]

/-- The lines of a text make up the text. -/
@[simp] theorem flatten_splitLines (text : List Char) : (splitLines text).flatten = text := by
  induction text using line_induction with
  | empty => rfl
  | unended body nonempty unfed => simp [splitLines_unended nonempty unfed]
  | ended body rest unfed ih => simp [splitLines_ended unfed, ih]

/-! ## Changing lines -/

/-- A line with its line feeds in the same places as in an ended line is one. -/
theorem ended_of_lineFeeds {line body : List Char} (unfed : '\n' ∉ body)
    (same : lineFeeds line = lineFeeds (body ++ ['\n'])) :
    ∃ other, line = other ++ ['\n'] ∧ '\n' ∉ other := by
  rw [lineFeeds_append] at same
  obtain ⟨other, last, rfl, front, back⟩ := List.map_eq_append_iff.mp same
  obtain ⟨letter, rfl, fed⟩ := List.map_eq_singleton_iff.mp back
  refine ⟨other, by rw [beq_iff_eq.mp fed], fun member => unfed ?_⟩
  rw [← true_mem_lineFeeds_iff] at member ⊢
  exact front ▸ member

/-- A line with its line feeds in the same places as in one without any has none. -/
theorem unended_of_lineFeeds {line body : List Char} (nonempty : body ≠ [])
    (unfed : '\n' ∉ body) (same : lineFeeds line = lineFeeds body) :
    line ≠ [] ∧ '\n' ∉ line := by
  constructor
  · rintro rfl
    exact nonempty (List.map_eq_nil_iff.mp same.symm)
  · rwa [← true_mem_lineFeeds_iff, same, true_mem_lineFeeds_iff]

/-- **Changing each line, with the line feeds left in their places, keeps the lines apart.** -/
theorem splitLines_flatMap {change : List Char → List Char}
    (keeps : ∀ line, lineFeeds (change line) = lineFeeds line) (text : List Char) :
    splitLines ((splitLines text).flatMap change) = (splitLines text).map change := by
  induction text using line_induction with
  | empty => rfl
  | unended body nonempty unfed =>
    obtain ⟨nonempty', unfed'⟩ := unended_of_lineFeeds nonempty unfed (keeps body)
    simp [splitLines_unended nonempty unfed, splitLines_unended nonempty' unfed']
  | ended body rest unfed ih =>
    obtain ⟨other, changed, unfed'⟩ := ended_of_lineFeeds unfed (keeps (body ++ ['\n']))
    rw [splitLines_ended unfed, List.flatMap_cons, List.map_cons, changed, List.append_assoc,
      List.singleton_append, splitLines_ended unfed', ih]

/-- **The lines of a text in lower case are its lines in lower case.** -/
theorem splitLines_lowerComments (marker text : List Char) :
    splitLines (lowerComments marker text).text = (splitLines text).map (lowerLine marker) :=
  splitLines_flatMap (lineFeeds_lowerLine marker) text

/-- A text that is one line is lower-cased as a line. -/
theorem lowerComments_unended {marker body : List Char} (nonempty : body ≠ [])
    (unfed : '\n' ∉ body) :
    lowerComments marker body =
      { text := lowerLine marker body
        lines := 1
        changedLines := if (lowerLine? marker body).isSome then 1 else 0 } := by
  simp only [lowerComments, splitLines_unended nonempty unfed, List.flatMap_singleton,
    List.length_singleton, List.countP_singleton]

/-- The first line of a text and the others are lower-cased one after the other. -/
theorem lowerComments_ended {marker body : List Char} (unfed : '\n' ∉ body) (rest : List Char) :
    lowerComments marker (body ++ '\n' :: rest) =
      { text := lowerLine marker (body ++ ['\n']) ++ (lowerComments marker rest).text
        lines := (lowerComments marker rest).lines + 1
        changedLines := (lowerComments marker rest).changedLines +
          if (lowerLine? marker (body ++ ['\n'])).isSome then 1 else 0 } := by
  simp only [lowerComments, splitLines_ended unfed, List.flatMap_cons, List.length_cons,
    List.countP_cons]

/-! ## The counts -/

/-- The text in lower case has as many characters as the text. -/
@[simp] theorem length_lowerComments (marker text : List Char) :
    (lowerComments marker text).text.length = text.length := by
  have whole : ((splitLines text).map List.length).sum = text.length := by
    rw [← List.length_flatten, flatten_splitLines]
  unfold lowerComments
  rw [List.length_flatMap]
  simpa using whole

theorem lines_lowerComments (marker text : List Char) :
    (lowerComments marker text).lines = (splitLines text).length := rfl

end LowerComments.Comment
