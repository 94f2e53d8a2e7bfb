import LowerComments.Comment.Span
import LowerComments.Proofs.Letter.Settled

/-!
# Spans in lower case

Lower-casing a span keeps its length and works position by position: the character
at a position depends on the one that was there and, for a capital sigma, on what
stands on either side of it (`getElem?_lowerFrom`). Settled characters stay
(`lowerLetter_of_settled`) and every character of the result is settled
(`settled_of_mem_lowerSpan`), so that a second pass changes nothing
(`lowerSpan_lowerSpan`). Line feeds stay where they are (`lineFeeds_lowerFrom`).
-/

set_option autoImplicit false

namespace LowerComments.Comment

open LowerComments.Letter

/-! ## One character -/

/-- A settled character stays as it is, whatever stands around it. -/
theorem lowerLetter_of_settled {letter : Char} (settled : Settled letter)
    (before after : List Char) : lowerLetter before letter after = letter := by
  unfold lowerLetter
  rw [if_neg settled.ne_capitalSigma]
  rcases settled with same | long
  · rw [same]
  · split
    · next lower single =>
      rw [single] at long
      exact absurd long (by simp)
    · rfl

/-- Whatever a character becomes is settled. -/
theorem settled_lowerLetter (before : List Char) (letter : Char) (after : List Char) :
    Settled (lowerLetter before letter after) := by
  unfold lowerLetter
  split
  · exact settled_of_sigmaBetween before after
  · split
    · next lower single => exact settled_of_lowerCase single
    · next other =>
      -- A lower-case form is never empty, so one that is not single is longer.
      refine .inr ?_
      unfold lowerCase at other ⊢
      split
      · decide
      · next notDotted =>
        rw [if_neg notDotted] at other
        cases found : lowerCode? letter.toNat with
        | none => exact absurd (by rw [found]) (other letter)
        | some code => exact absurd (by rw [found]) (other (Char.ofNat code))

/-- A character becomes a line feed exactly when it is one. -/
theorem lowerLetter_eq_lineFeed_iff {letter : Char} {before after : List Char} :
    lowerLetter before letter after = '\n' ↔ letter = '\n' := by
  constructor
  · intro fed
    by_cases same : letter = '\n'
    · exact same
    · unfold lowerLetter at fed
      split at fed
      · unfold sigmaBetween at fed
        split at fed
        · exact absurd fed (by decide)
        · exact absurd fed (by decide)
      · split at fed
        · next single => exact absurd fed (ne_lineFeed_of_lowerCase single same)
        · exact fed
  · rintro rfl
    exact lowerLetter_of_settled (by decide +kernel) before after

/-! ## Whole spans -/

@[simp] theorem length_lowerFrom (before span : List Char) :
    (lowerFrom before span).length = span.length := by
  induction span generalizing before with
  | nil => rfl
  | cons letter after ih => simp [lowerFrom, ih]

@[simp] theorem length_lowerSpan (span : List Char) : (lowerSpan span).length = span.length :=
  length_lowerFrom [] span

/-- **The character at a position is the lower-cased one of that position**, between the
characters that stand on either side of it in the span. -/
theorem getElem?_lowerFrom (before span : List Char) (position : Nat) :
    (lowerFrom before span)[position]? =
      span[position]?.map fun letter =>
        lowerLetter ((span.take position).reverse ++ before) letter (span.drop (position + 1)) := by
  induction span generalizing before position with
  | nil => rfl
  | cons letter after ih =>
    cases position with
    | zero => rfl
    | succ position => simp [lowerFrom, ih]

/-- Settled characters at the head of a span stay, and the rest is lower-cased behind them. -/
theorem lowerFrom_append_of_settled {front : List Char}
    (settled : ∀ letter ∈ front, Settled letter) (before rest : List Char) :
    lowerFrom before (front ++ rest) = front ++ lowerFrom (front.reverse ++ before) rest := by
  induction front generalizing before with
  | nil => rfl
  | cons letter front ih =>
    have later : ∀ other ∈ front, Settled other :=
      fun other member => settled other (List.mem_cons_of_mem _ member)
    simp only [List.cons_append, lowerFrom, List.reverse_cons, List.append_assoc, List.nil_append]
    rw [lowerLetter_of_settled (settled letter (List.mem_cons_self ..)), ih later]

/-- A span of settled characters is in lower case. -/
theorem lowerSpan_of_settled {span : List Char} (settled : ∀ letter ∈ span, Settled letter) :
    lowerSpan span = span := by
  have whole := lowerFrom_append_of_settled settled [] []
  simpa [lowerSpan, lowerFrom] using whole

theorem settled_of_mem_lowerFrom {before span : List Char} {letter : Char}
    (member : letter ∈ lowerFrom before span) : Settled letter := by
  induction span generalizing before with
  | nil => simp [lowerFrom] at member
  | cons first after ih =>
    rcases List.mem_cons.mp member with rfl | later
    · exact settled_lowerLetter before first after
    · exact ih later

/-- **Every character of a span in lower case is settled.** -/
theorem settled_of_mem_lowerSpan {span : List Char} {letter : Char}
    (member : letter ∈ lowerSpan span) : Settled letter :=
  settled_of_mem_lowerFrom member

/-- **Lower-casing a span twice is lower-casing it once.** -/
theorem lowerSpan_lowerSpan (span : List Char) : lowerSpan (lowerSpan span) = lowerSpan span :=
  lowerSpan_of_settled fun _ member => settled_of_mem_lowerSpan member

/-! ## Line feeds -/

/-- Where the line feeds of a text stand. -/
def lineFeeds (text : List Char) : List Bool :=
  text.map (· == '\n')

@[simp] theorem lineFeeds_append (front rest : List Char) :
    lineFeeds (front ++ rest) = lineFeeds front ++ lineFeeds rest :=
  List.map_append ..

/-- A text has no line feed when there is none anywhere in it. -/
theorem true_mem_lineFeeds_iff {text : List Char} : true ∈ lineFeeds text ↔ '\n' ∈ text := by
  simp [lineFeeds]

/-- **Lower-casing a span leaves every line feed where it is and makes no other.** -/
theorem lineFeeds_lowerFrom (before span : List Char) :
    lineFeeds (lowerFrom before span) = lineFeeds span := by
  induction span generalizing before with
  | nil => rfl
  | cons letter after ih =>
    have first : (lowerLetter before letter after == '\n') = (letter == '\n') := by
      rw [Bool.eq_iff_iff, beq_iff_eq, beq_iff_eq]
      exact lowerLetter_eq_lineFeed_iff
    have rest := ih (letter :: before)
    unfold lineFeeds at rest ⊢
    simp only [lowerFrom, List.map_cons, first, rest]

end LowerComments.Comment
