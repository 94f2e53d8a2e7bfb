import LowerComments.Proofs.Comment.Marker
import LowerComments.Proofs.Letter.Neighbours

/-!
# Comments that are in lower case in part

A comment may have been lower-cased by hand here and there. A line and a variant of it in
which some characters of the comment have been replaced by their lower-case characters
come out the same (`lowerLine_eq_of_variant`).

A capital sigma is not replaced in a variant, since which of the small ones it becomes is
the question. The answer is the same for the line and the variant: a replaced neighbour is
cased or case-ignorable exactly as the one before it was, however far away the search finds
it (`sigmaBetween_eq_of_folds`). All other characters come out the same because the
lower-case character of a letter is settled.
-/

set_option autoImplicit false

namespace LowerComments.Comment

open LowerComments.Letter

variable {marker line variant span replaced : List Char}

/-- What may stand for a character of a comment: the character itself, or the single character of
its lower-case form. A capital sigma stands for itself only. -/
inductive Folds : Char → Char → Prop where
  | kept (letter : Char) : Folds letter letter
  | lowered {letter lower : Char} (other : letter ≠ capitalSigma)
    (single : lowerCase letter = [lower]) : Folds letter lower

/-- A variant of a line: behind the first marker, any of the characters have been replaced by what
may stand for them. A line without the marker has no comment and no variant but itself. -/
inductive Variant (marker : List Char) : List Char → List Char → Prop where
  | uncut {line : List Char} (cut : splitAtMarker? marker line = none) : Variant marker line line
  | cut {line code span replaced : List Char}
    (cut : splitAtMarker? marker line = some (code, span))
    (folds : List.Forall₂ Folds span replaced) : Variant marker line (code ++ replaced)

/-! ## What does not change -/

theorem Folds.isCased {letter other : Char} (folds : Folds letter other) :
    isCased other = isCased letter := by
  cases folds with
  | kept => rfl
  | lowered _ single => exact isCased_of_lowerCase single

theorem Folds.isIgnorable {letter other : Char} (folds : Folds letter other) :
    isIgnorable other = isIgnorable letter := by
  cases folds with
  | kept => rfl
  | lowered _ single => exact isIgnorable_of_lowerCase single

/-- A settled character stands for itself only. -/
theorem Folds.eq_of_settled {letter other : Char} (folds : Folds letter other)
    (settled : Settled letter) : other = letter := by
  cases folds with
  | kept => rfl
  | lowered _ single =>
    rcases settled with same | long
    · exact (List.singleton_inj.mp (same.symm.trans single)).symm
    · rw [single] at long
      exact absurd long (by simp)

/-- The search for a neighbour finds a cased character in both texts or in neither. The induction
is on the characters that are passed, which are case-ignorable in both. -/
theorem facesCased_eq_of_folds {side other : List Char} (folds : List.Forall₂ Folds side other) :
    facesCased other = facesCased side := by
  unfold facesCased nearest?
  induction folds with
  | nil => rfl
  | cons first rest ih =>
    rw [List.find?_cons, List.find?_cons, first.isIgnorable]
    split
    · simp only [Option.any_some, first.isCased]
    · exact ih

/-- **A capital sigma has the same form between variants of the texts around it.** -/
theorem sigmaBetween_eq_of_folds {before before' after after' : List Char}
    (foldsBefore : List.Forall₂ Folds before before')
    (foldsAfter : List.Forall₂ Folds after after') :
    sigmaBetween before' after' = sigmaBetween before after := by
  unfold sigmaBetween endsWord
  rw [facesCased_eq_of_folds foldsBefore, facesCased_eq_of_folds foldsAfter]

/-! ## Lower-casing -/

/-- A character and what stands for it come out the same between variants of the texts around
them. -/
theorem lowerLetter_eq_of_folds {letter other : Char} {before before' after after' : List Char}
    (folds : Folds letter other) (foldsBefore : List.Forall₂ Folds before before')
    (foldsAfter : List.Forall₂ Folds after after') :
    lowerLetter before' other after' = lowerLetter before letter after := by
  cases folds with
  | kept =>
    unfold lowerLetter
    rw [sigmaBetween_eq_of_folds foldsBefore foldsAfter]
  | lowered unsigma single =>
    calc lowerLetter before' other after'
        = other := lowerLetter_of_settled (settled_of_lowerCase single) before' after'
      _ = lowerLetter before letter after := by rw [lowerLetter, if_neg unsigma, single]

theorem lowerFrom_eq_of_folds {before before' : List Char}
    (foldsBefore : List.Forall₂ Folds before before')
    (folds : List.Forall₂ Folds span replaced) :
    lowerFrom before' replaced = lowerFrom before span := by
  induction folds generalizing before before' with
  | nil => rfl
  | cons first rest ih =>
    rw [lowerFrom, lowerFrom, lowerLetter_eq_of_folds first foldsBefore rest,
      ih (.cons first foldsBefore)]

/-- **A span and a variant of it are the same in lower case.** -/
theorem lowerSpan_eq_of_folds (folds : List.Forall₂ Folds span replaced) :
    lowerSpan replaced = lowerSpan span :=
  lowerFrom_eq_of_folds .nil folds

/-- A marker of settled characters opens every variant of a span that it opens. -/
theorem prefix_of_folds (settled : ∀ letter ∈ marker, Settled letter) (opens : marker <+: span)
    (folds : List.Forall₂ Folds span replaced) : marker <+: replaced := by
  induction marker generalizing span replaced with
  | nil => exact List.nil_prefix
  | cons letter marker ih =>
    obtain ⟨own, others⟩ := List.forall_mem_cons.mp settled
    obtain ⟨rest, rfl⟩ := opens
    cases folds with
    | cons first behind =>
      rw [first.eq_of_settled own]
      exact List.cons_prefix_cons.mpr ⟨rfl, ih others (List.prefix_append _ _) behind⟩

/-- **The result does not depend on how much of a comment was in lower case already.** For a marker
of settled characters, such as the shipped one, a line and any variant of it give the same line in
lower case. -/
theorem lowerLine_eq_of_variant (settled : ∀ letter ∈ marker, Settled letter)
    (varies : Variant marker line variant) : lowerLine marker variant = lowerLine marker line := by
  cases varies with
  | uncut => rfl
  | cut cut folds =>
    obtain ⟨rfl, opens, -⟩ := splitAtMarker?_eq_some_iff.mp cut
    have cut' := splitAtMarker?_of_opens cut (prefix_of_folds settled opens folds)
    rw [lowerLine_of_some cut, lowerLine_of_some cut', lowerSpan_eq_of_folds folds]

/-- The last letter but one in lower case: the sigma behind it ends the word as before. -/
theorem lowerLine_eq_of_variant_sigma :
    (∀ letter ∈ ['-', '-'], Settled letter) ∧
      Variant ['-', '-'] "Σ --ΟΔΟΣ".toList "Σ --ΟΔοΣ".toList ∧
      lowerLine ['-', '-'] "Σ --ΟΔοΣ".toList = lowerLine ['-', '-'] "Σ --ΟΔΟΣ".toList := by
  have cut : splitAtMarker? ['-', '-'] "Σ --ΟΔΟΣ".toList =
      some ("Σ ".toList, "--ΟΔΟΣ".toList) := by
    decide +kernel
  have folds : List.Forall₂ Folds "--ΟΔΟΣ".toList "--ΟΔοΣ".toList :=
    .cons (.kept _) <| .cons (.kept _) <| .cons (.kept _) <| .cons (.kept _) <|
      .cons (.lowered (by decide) (by decide +kernel)) <| .cons (.kept _) .nil
  have varies : Variant ['-', '-'] "Σ --ΟΔΟΣ".toList "Σ --ΟΔοΣ".toList := .cut cut folds
  exact ⟨settled_hyphens, varies, lowerLine_eq_of_variant settled_hyphens varies⟩

end LowerComments.Comment
