import LowerComments.Proofs.Comment.Lines

/-!
# Line feeds with and without carriage returns

The terminator of a line belongs to the span of its comment. It is lower-cased with the span, and
the search for the neighbours of a sigma comes to it. What stands at the end of a line makes no
difference all the same: lower-casing a line with an ending is lower-casing the line and putting
the ending behind it (`lowerLine_append`). What an ending must be like for that is collected
in `Ending`. A line feed is one and a carriage return with a line feed is another.

Changing one terminator into the other is then the same before and after lower-casing the
comments of a text (`lowerComments_withReturns`). Carriage returns that the text has already
stay where they are and do not matter, since a line is cut at its line feed alone.
-/

set_option autoImplicit false

namespace LowerComments.Comment

open LowerComments.Letter

variable {marker body ending : List Char}

/-- Characters that may stand at the end of a line: they are settled, the search for a cased
neighbour finds none among them, and they do not occur in the marker. -/
structure Ending (marker ending : List Char) : Prop where
  settled : ∀ letter ∈ ending, Settled letter
  uncased : facesCased ending = false
  apart : ∀ letter ∈ ending, letter ∉ marker

theorem ending_lineFeed (unfed : '\n' ∉ marker) : Ending marker ['\n'] where
  settled := List.forall_mem_singleton.mpr (by decide +kernel)
  uncased := by decide +kernel
  apart := List.forall_mem_singleton.mpr unfed

theorem ending_return (unfed : '\n' ∉ marker) (unreturned : '\r' ∉ marker) :
    Ending marker ['\r', '\n'] where
  settled := List.forall_mem_cons.mpr
    ⟨by decide +kernel, List.forall_mem_singleton.mpr (by decide +kernel)⟩
  uncased := by decide +kernel
  apart := List.forall_mem_cons.mpr ⟨unreturned, List.forall_mem_singleton.mpr unfed⟩

/-! ## A line with an ending -/

/-- A text does not reach into characters that do not occur in it. -/
theorem prefix_append_iff {front tail : List Char} (apart : ∀ letter ∈ tail, letter ∉ marker) :
    marker <+: front ++ tail ↔ marker <+: front := by
  induction marker generalizing front with
  | nil => exact iff_of_true List.nil_prefix List.nil_prefix
  | cons letter marker ih =>
    cases front with
    | nil =>
      refine iff_of_false (fun opens => ?_) (fun opens => ?_)
      · exact apart letter (opens.subset List.mem_cons_self) List.mem_cons_self
      · exact absurd (List.prefix_nil.mp opens) (List.cons_ne_nil _ _)
    | cons first front =>
      rw [List.cons_append, List.cons_prefix_cons, List.cons_prefix_cons,
        ih fun other member inside => apart other member (List.mem_cons_of_mem _ inside)]

/-- The cut of a line is the same with an ending behind it. -/
theorem splitAtMarker?_append (apart : ∀ letter ∈ ending, letter ∉ marker) (body : List Char) :
    splitAtMarker? marker (body ++ ending) =
      (splitAtMarker? marker body).map fun parts => (parts.1, parts.2 ++ ending) := by
  have occurs (position : Nat) :
      marker <+: (body ++ ending).drop position ↔ marker <+: body.drop position := by
    rw [List.drop_append]
    exact prefix_append_iff fun letter member => apart letter (List.mem_of_mem_drop member)
  cases cut : splitAtMarker? marker body with
  | none =>
    rw [Option.map_none, splitAtMarker?_eq_none_iff]
    exact fun position => mt (occurs position).mp (splitAtMarker?_eq_none_iff.mp cut position)
  | some parts =>
    obtain ⟨code, span⟩ := parts
    obtain ⟨whole, opens, first⟩ := splitAtMarker?_eq_some_iff.mp cut
    rw [Option.map_some, splitAtMarker?_eq_some_iff]
    refine ⟨by rw [whole, List.append_assoc], opens.trans (List.prefix_append _ _), ?_⟩
    exact fun position early => mt (occurs position).mp (first position early)

/-- A search that comes to the ending finds no cased neighbour, as at the end of the text. -/
theorem facesCased_append (uncased : facesCased ending = false) (side : List Char) :
    facesCased (side ++ ending) = facesCased side := by
  unfold facesCased nearest? at uncased ⊢
  rw [List.find?_append]
  cases side.find? fun letter => !isIgnorable letter with
  | none => exact uncased
  | some letter => rfl

theorem lowerFrom_append (ends : Ending marker ending) (before span : List Char) :
    lowerFrom before (span ++ ending) = lowerFrom before span ++ ending := by
  induction span generalizing before with
  | nil =>
    have stays := lowerFrom_append_of_settled ends.settled before []
    rwa [List.append_nil, lowerFrom, List.append_nil] at stays
  | cons letter after ih =>
    have first : lowerLetter before letter (after ++ ending) = lowerLetter before letter after := by
      unfold lowerLetter sigmaBetween endsWord
      rw [facesCased_append ends.uncased]
    rw [List.cons_append, lowerFrom, lowerFrom, first, ih, List.cons_append]

/-- **Lower-casing a line leaves its ending alone**, and the ending makes no difference for the rest
of the line. -/
theorem lowerLine_append (ends : Ending marker ending) (body : List Char) :
    lowerLine marker (body ++ ending) = lowerLine marker body ++ ending := by
  have cut' := splitAtMarker?_append ends.apart body
  cases cut : splitAtMarker? marker body with
  | none =>
    rw [cut, Option.map_none] at cut'
    rw [lowerLine_of_none cut, lowerLine_of_none cut']
  | some parts =>
    obtain ⟨code, span⟩ := parts
    rw [cut, Option.map_some] at cut'
    rw [lowerLine_of_some cut, lowerLine_of_some cut', List.append_assoc]
    exact congrArg _ (lowerFrom_append ends [] span)

/-- A line with an ending changes exactly when the line does. -/
theorem isSome_lowerLine?_append (ends : Ending marker ending) (body : List Char) :
    (lowerLine? marker (body ++ ending)).isSome = (lowerLine? marker body).isSome := by
  have same : lowerLine? marker (body ++ ending) = none ↔ lowerLine? marker body = none := by
    rw [lowerLine?_eq_none_iff, lowerLine?_eq_none_iff, lowerLine_append ends,
      List.append_left_inj]
  rw [Bool.eq_iff_iff, Option.isSome_iff_ne_none, Option.isSome_iff_ne_none, ne_eq, ne_eq, same]

/-! ## Texts -/

/-- The text with a carriage return in front of every line feed. -/
def withReturns (text : List Char) : List Char :=
  text.flatMap fun letter => if letter = '\n' then ['\r', '\n'] else [letter]

/-- Without line feeds there is nothing to be done. -/
theorem withReturns_of_unfed (unfed : '\n' ∉ body) : withReturns body = body := by
  induction body with
  | nil => rfl
  | cons letter body ih =>
    obtain ⟨other, later⟩ := not_or.mp (mt List.mem_cons.mpr unfed)
    rw [withReturns, List.flatMap_cons, if_neg (Ne.symm other), ← withReturns, ih later,
      List.singleton_append]

/-- The carriage return stands between a line and its line feed. -/
theorem withReturns_ended (unfed : '\n' ∉ body) (rest : List Char) :
    withReturns (body ++ '\n' :: rest) = (body ++ ['\r']) ++ '\n' :: withReturns rest := by
  have front := withReturns_of_unfed unfed
  unfold withReturns at front ⊢
  rw [List.flatMap_append, front, List.flatMap_cons, if_pos rfl]
  simp

/-- A line in lower case has a line feed only if the line has one. -/
theorem unfed_lowerLine (unfed : '\n' ∉ body) : '\n' ∉ lowerLine marker body := by
  rwa [← true_mem_lineFeeds_iff, lineFeeds_lowerLine, true_mem_lineFeeds_iff]

/-- **Lower-casing comments commutes with changing the terminators of lines.** For a marker without
line feeds and carriage returns, such as the shipped one, a text with a carriage return in front of
every line feed comes out as the text does, with a carriage return in front of every line feed.
The counts are the same. The induction is along the lines of the text. -/
theorem lowerComments_withReturns (unfed : '\n' ∉ marker) (unreturned : '\r' ∉ marker)
    (text : List Char) :
    lowerComments marker (withReturns text) =
      { lowerComments marker text with text := withReturns (lowerComments marker text).text } := by
  induction text using line_induction with
  | empty => rfl
  | unended body nonempty whole =>
    have single : (lowerComments marker body).text = lowerLine marker body := by
      rw [lowerComments_unended nonempty whole]
    rw [withReturns_of_unfed whole, single, withReturns_of_unfed (unfed_lowerLine whole), ← single]
  | ended body rest whole ih =>
    have feed := ending_lineFeed unfed
    have both := ending_return unfed unreturned
    have returned : '\n' ∉ body ++ ['\r'] := by simpa using whole
    have shape : body ++ ['\r'] ++ ['\n'] = body ++ ['\r', '\n'] := List.append_assoc ..
    have text : lowerLine marker body ++ ['\r', '\n'] ++
          withReturns (lowerComments marker rest).text =
        withReturns (lowerLine marker body ++ ['\n'] ++ (lowerComments marker rest).text) := by
      rw [List.append_assoc _ ['\n'], List.singleton_append,
        withReturns_ended (unfed_lowerLine whole)]
      simp
    rw [withReturns_ended whole, lowerComments_ended returned, lowerComments_ended whole, ih, shape,
      lowerLine_append both, lowerLine_append feed, isSome_lowerLine?_append both,
      isSome_lowerLine?_append feed]
    simp only [text]

/-- A sigma in front of the terminator, a line that has a carriage return already, and a last line
without a terminator. -/
theorem lowerComments_withReturns_hyphens :
    ('\n' ∉ ['-', '-'] ∧ '\r' ∉ ['-', '-']) ∧
      lowerComments ['-', '-'] (withReturns "--ΟΣ\nA --B\r\nC".toList) =
        { lowerComments ['-', '-'] "--ΟΣ\nA --B\r\nC".toList with
          text := withReturns (lowerComments ['-', '-'] "--ΟΣ\nA --B\r\nC".toList).text } :=
  ⟨⟨by decide, by decide⟩, lowerComments_withReturns (by decide) (by decide) _⟩

end LowerComments.Comment
