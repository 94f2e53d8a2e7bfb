import LowerComments.Proofs.Comment.Marker
import LowerComments.Proofs.Utf8.Boundaries

/-!
# A line character by character

A line is cut at the first byte index at which the bytes of the marker occur in its
bytes (`markerIndex?_eq_some_iff`). The code in front of the cut stays, and the span
behind it keeps its number of characters. Each of them comes out by a rule of its own
that looks at the span alone (`getElem?_lowerSpan_append`).

The rule for a capital sigma asks for the nearest characters on both sides that are not
case-ignorable. `EndsCased` and `OpensCased` say what is asked in terms of the text
before and after, without a scan.

There is a second way to lower-case a span. The whole span is lower-cased as a text, in
which a character may become several (`lowerText`). Then the span and that text are
walked in step, and at each character of the span as many characters of the text are
passed as its form has (`align`). A form of one character is taken over, and otherwise
the character of the span stays. The walk never runs out of characters and never loses
one: it gives the span in lower case (`align_lowerText`).
-/

set_option autoImplicit false

namespace LowerComments.Comment

open LowerComments.Letter

variable {marker line code span : List Char}

/-! ## The first occurrence in bytes -/

/-- The bytes of the marker occur in the bytes of the line at this index. -/
def OccursAt (marker line : List Char) (index : Nat) : Prop :=
  Utf8.encode marker <+: (Utf8.encode line).drop index

/-- The marker occurs in the line at this byte index and at no smaller one. -/
structure FirstAt (marker line : List Char) (index : Nat) : Prop where
  occurs : OccursAt marker line index
  earliest : ∀ earlier < index, ¬ OccursAt marker line earlier

/-- What opens the second part of a line occurs in its bytes behind those of the first part. -/
theorem occursAt_append (opens : marker <+: span) :
    OccursAt marker (code ++ span) (Utf8.encode code).length := by
  obtain ⟨rest, rfl⟩ := opens
  rw [OccursAt, Utf8.encode_append, List.drop_left, Utf8.encode_append]
  exact List.prefix_append _ _

/-- A cut that is found in characters is the first one in bytes. -/
theorem firstAt_of_cut (cut : splitAtMarker? marker line = some (code, span)) :
    FirstAt marker line (Utf8.encode code).length := by
  obtain ⟨rfl, opens, first⟩ := splitAtMarker?_eq_some_iff.mp cut
  refine ⟨occursAt_append opens, fun earlier less found => ?_⟩
  by_cases blank : marker = []
  · -- A marker without characters occurs at the start, so there is nothing in front of the cut.
    rcases code with _ | ⟨letter, code⟩
    · exact Nat.not_lt_zero earlier less
    · exact first 0 (Nat.zero_lt_succ _) (blank ▸ List.nil_prefix)
  · obtain ⟨front, rest, whole, rfl, opensRest⟩ := Utf8.exists_cut_of_prefix_drop blank found
    have shorter : front.length < code.length := by
      refine Nat.lt_of_not_le fun longer => ?_
      obtain ⟨middle, rfl⟩ := List.prefix_of_prefix_length_le (List.prefix_append code span)
        (whole ▸ List.prefix_append front rest) longer
      rw [Utf8.encode_append, List.length_append] at less
      omega
    refine first front.length shorter ?_
    rwa [whole, List.drop_left]

/-- **The search for the marker finds its first byte index.** -/
theorem markerIndex?_eq_some_iff {index : Nat} :
    markerIndex? marker line = some index ↔ FirstAt marker line index := by
  constructor
  · intro found
    obtain ⟨⟨code, span⟩, cut, rfl⟩ := Option.map_eq_some_iff.mp found
    exact firstAt_of_cut cut
  · intro first
    cases cut : splitAtMarker? marker line with
    | some parts =>
      have again := firstAt_of_cut cut
      rw [markerIndex?, cut, Option.map_some, Option.some.injEq]
      refine Nat.le_antisymm (Nat.le_of_not_lt fun less => ?_) (Nat.le_of_not_lt fun less => ?_)
      · exact again.earliest index less first.occurs
      · exact first.earliest _ less again.occurs
    | none =>
      have nowhere := splitAtMarker?_eq_none_iff.mp cut
      have nonempty : marker ≠ [] := fun blank => nowhere 0 (blank ▸ List.nil_prefix)
      obtain ⟨front, rest, rfl, _, opens⟩ := Utf8.exists_cut_of_prefix_drop nonempty first.occurs
      exact absurd (by rwa [List.drop_left]) (nowhere front.length)

/-- A line in whose bytes the marker does not occur is not cut. -/
theorem splitAtMarker?_eq_none (nowhere : ∀ index, ¬ OccursAt marker line index) :
    splitAtMarker? marker line = none := by
  cases cut : splitAtMarker? marker line with
  | none => rfl
  | some parts => exact absurd (firstAt_of_cut cut).occurs (nowhere _)

/-! ## Around a capital sigma -/

/-- The last character that is not case-ignorable exists and is cased. -/
def EndsCased (before : List Char) : Prop :=
  ∃ front letter passed, before = front ++ letter :: passed ∧ isIgnorable letter = false ∧
    isCased letter = true ∧ ∀ other ∈ passed, isIgnorable other = true

/-- The first character that is not case-ignorable exists and is cased. -/
def OpensCased (after : List Char) : Prop :=
  ∃ passed letter rest, after = passed ++ letter :: rest ∧ isIgnorable letter = false ∧
    isCased letter = true ∧ ∀ other ∈ passed, isIgnorable other = true

theorem facesCased_iff {side : List Char} : facesCased side = true ↔ OpensCased side := by
  rw [facesCased, Option.any_eq_true]
  constructor
  · rintro ⟨letter, found, cased⟩
    obtain ⟨plain, passed, rest, whole, ignorable⟩ := List.find?_eq_some_iff_append.mp found
    exact ⟨passed, letter, rest, whole, by simpa using plain, cased, by simpa using ignorable⟩
  · rintro ⟨passed, letter, rest, whole, plain, cased, ignorable⟩
    refine ⟨letter, List.find?_eq_some_iff_append.mpr ?_, cased⟩
    exact ⟨by simpa using plain, passed, rest, whole, by simpa using ignorable⟩

theorem facesCased_reverse_iff {before : List Char} :
    facesCased before.reverse = true ↔ EndsCased before := by
  rw [facesCased_iff]
  constructor
  · rintro ⟨passed, letter, rest, whole, plain, cased, ignorable⟩
    refine ⟨rest.reverse, letter, passed.reverse, ?_, plain, cased, by simpa using ignorable⟩
    rw [← List.reverse_reverse before, whole]
    simp
  · rintro ⟨front, letter, passed, rfl, plain, cased, ignorable⟩
    exact ⟨passed.reverse, letter, front.reverse, by simp, plain, cased, by simpa using ignorable⟩

/-- The form of a capital sigma, told by the text on either side of it. -/
theorem endsWord_iff {before after : List Char} :
    endsWord before.reverse after = true ↔ EndsCased before ∧ ¬ OpensCased after := by
  rw [endsWord, Bool.and_eq_true, Bool.not_eq_true', ← Bool.not_eq_true, facesCased_reverse_iff,
    facesCased_iff]

/-! ## Walking in step with the whole text -/

/-- The lower-case form of a character between the characters before it, nearest first, and the
characters after it. -/
def lowerForm (before : List Char) (letter : Char) (after : List Char) : List Char :=
  if letter = capitalSigma then [sigmaBetween before after] else lowerCase letter

/-- The lower-case forms of the rest of a text, with the characters already passed in `before`,
nearest first. -/
def lowerTextFrom (before : List Char) : List Char → List Char
  | [] => []
  | letter :: after => lowerForm before letter after ++ lowerTextFrom (letter :: before) after

/-- A text in lower case, each character with its whole form. -/
def lowerText (text : List Char) : List Char :=
  lowerTextFrom [] text

/-- Walks along a span and its text in lower case in step. A form of one character is taken over
if the text has one left, and otherwise the character of the span stays and its form is passed. -/
def align : List Char → List Char → List Char
  | [], _ => []
  | letter :: rest, lowered =>
    if (lowerCase letter).length = 1 then lowered.take 1 ++ align rest (lowered.drop 1)
    else letter :: align rest (lowered.drop (lowerCase letter).length)

/-- A lower-case form has a character at least. -/
theorem lowerCase_ne_nil (letter : Char) : lowerCase letter ≠ [] := by
  unfold lowerCase
  split
  · simp
  · split <;> simp

/-- The place in a word changes the form of a character but not its length. -/
theorem length_lowerForm (before : List Char) (letter : Char) (after : List Char) :
    (lowerForm before letter after).length = (lowerCase letter).length := by
  unfold lowerForm
  split
  · next sigma => rw [sigma, lowerCase_capitalSigma]; rfl
  · rfl

/-- A form of one character is the character that the span takes over. -/
theorem lowerForm_of_length_eq_one {before after : List Char} {letter : Char}
    (single : (lowerCase letter).length = 1) :
    lowerForm before letter after = [lowerLetter before letter after] := by
  unfold lowerForm lowerLetter
  split
  · rfl
  · obtain ⟨lower, form⟩ := List.length_eq_one_iff.mp single
    rw [form]

/-- A character with a longer form stays. -/
theorem lowerLetter_of_length_ne_one {letter : Char} (longer : (lowerCase letter).length ≠ 1)
    (before after : List Char) : lowerLetter before letter after = letter := by
  have positive := List.length_pos_iff.mpr (lowerCase_ne_nil letter)
  exact lowerLetter_of_settled (.inr (by omega)) before after

/-- The walk in step, from any place of a text on. The two stay at the same character, since a
form is as long as the character that is passed says. -/
theorem align_lowerTextFrom (before rest : List Char) :
    align rest (lowerTextFrom before rest) = lowerFrom before rest := by
  induction rest generalizing before with
  | nil => rfl
  | cons letter rest ih =>
    rw [align, lowerTextFrom, lowerFrom]
    by_cases single : (lowerCase letter).length = 1
    · rw [if_pos single, lowerForm_of_length_eq_one single, List.singleton_append,
        List.take_succ_cons, List.take_zero, List.singleton_append, List.drop_succ_cons,
        List.drop_zero, ih]
    · rw [if_neg single, ← length_lowerForm before letter rest, List.drop_left, ih,
        lowerLetter_of_length_ne_one single]

/-- **Walking in step with the text in lower case gives the span in lower case.** -/
theorem align_lowerText (span : List Char) : align span (lowerText span) = lowerSpan span :=
  align_lowerTextFrom [] span

/-! ## The rule for each character -/

/-- A character of a span in lower case, with the text of the span on either side. -/
theorem getElem?_lowerSpan_append (before : List Char) (letter : Char) (after : List Char) :
    (lowerSpan (before ++ letter :: after))[before.length]? =
      some (lowerLetter before.reverse letter after) := by
  rw [lowerSpan, getElem?_lowerFrom]
  simp

theorem lowerLetter_eq_finalSigma {before after : List Char}
    (ends : EndsCased before ∧ ¬ OpensCased after) :
    lowerLetter before.reverse capitalSigma after = finalSigma := by
  rw [lowerLetter, if_pos rfl, sigmaBetween, if_pos (endsWord_iff.mpr ends)]

theorem lowerLetter_eq_smallSigma {before after : List Char}
    (inside : ¬ (EndsCased before ∧ ¬ OpensCased after)) :
    lowerLetter before.reverse capitalSigma after = smallSigma := by
  rw [lowerLetter, if_pos rfl, sigmaBetween, if_neg (mt endsWord_iff.mp inside)]

/-- **A line in lower case, character by character.** Let the marker occur first at a byte index.
The code up to that index stays. Behind it stand as many characters as before, found by walking in
step with the span in lower case as a text: a character whose form is longer than one character
stays, a capital sigma becomes the final one when a word ends behind it in the span and the other
one elsewhere, and any other character becomes its form. A line in which the marker does not occur
stays, and a line is answered as it is exactly when it does not change. -/
theorem lowerLine_characters (marker line : List Char) :
    (∀ index, FirstAt marker line index →
      ∃ code span, line = code ++ span ∧ (Utf8.encode code).length = index ∧
        lowerLine marker line = code ++ align span (lowerText span) ∧
        (align span (lowerText span)).length = span.length ∧
        ∀ before letter after, span = before ++ letter :: after →
          ∃ lowered, (align span (lowerText span))[before.length]? = some lowered ∧
            (1 < (lowerCase letter).length → lowered = letter) ∧
            (letter = capitalSigma → EndsCased before ∧ ¬ OpensCased after →
              lowered = finalSigma) ∧
            (letter = capitalSigma → ¬ (EndsCased before ∧ ¬ OpensCased after) →
              lowered = smallSigma) ∧
            (letter ≠ capitalSigma → (lowerCase letter).length = 1 →
              lowerCase letter = [lowered])) ∧
    ((∀ index, ¬ OccursAt marker line index) → lowerLine marker line = line) ∧
    (lowerLine? marker line = none ↔ lowerLine marker line = line) := by
  refine ⟨fun index first => ?_, fun nowhere => lowerLine_of_none (splitAtMarker?_eq_none nowhere),
    lowerLine?_eq_none_iff⟩
  obtain ⟨⟨code, span⟩, cut, length⟩ :=
    Option.map_eq_some_iff.mp (markerIndex?_eq_some_iff.mpr first)
  have whole := (splitAtMarker?_eq_some_iff.mp cut).1
  refine ⟨code, span, whole, length, ?_, ?_, ?_⟩
  · rw [align_lowerText, lowerLine_of_some cut]
  · rw [align_lowerText, length_lowerSpan]
  · rintro before letter after rfl
    rw [align_lowerText]
    refine ⟨_, getElem?_lowerSpan_append before letter after, fun long => ?_, ?_, ?_,
      fun other single => ?_⟩
    · exact lowerLetter_of_length_ne_one (Nat.ne_of_gt long) _ _
    · rintro rfl
      exact lowerLetter_eq_finalSigma
    · rintro rfl
      exact lowerLetter_eq_smallSigma
    · rw [← lowerForm_of_length_eq_one single, lowerForm, if_neg other]

/-- A line whose code has a character of two bytes: the cut is at the third byte. -/
theorem lowerLine_characters_sigma :
    FirstAt ['-', '-'] "Σ --İΟΔΟΣ".toList 3 ∧
      ∃ code span, "Σ --İΟΔΟΣ".toList = code ++ span ∧ (Utf8.encode code).length = 3 ∧
        lowerLine ['-', '-'] "Σ --İΟΔΟΣ".toList = code ++ align span (lowerText span) ∧
        (align span (lowerText span)).length = span.length := by
  have first : FirstAt ['-', '-'] "Σ --İΟΔΟΣ".toList 3 :=
    markerIndex?_eq_some_iff.mp (by decide +kernel)
  obtain ⟨code, span, whole, length, lowered, kept, _⟩ := (lowerLine_characters _ _).1 3 first
  exact ⟨first, code, span, whole, length, lowered, kept⟩

/-- The form of the dotted capital has two characters, so it stays. The last sigma ends a word, and
the one in the code is not looked at. -/
example : lowerLine ['-', '-'] "Σ --İΟΔΟΣ".toList = "Σ --İοδος".toList := by
  decide +kernel

end LowerComments.Comment
