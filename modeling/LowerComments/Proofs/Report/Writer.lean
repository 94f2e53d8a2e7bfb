import LowerComments.Report.Writer

/-!
# What a writer takes

A writer that takes all of the bytes offered to it has them behind what it had
(`Writer.put_of_fits`), and bytes may be offered in parts (`Writer.put_put`,
`Writer.fits_append`). A limit makes no difference as long as it is not reached
(`Writer.unlimited_put`).
-/

set_option autoImplicit false

namespace LowerComments.Writer

/-- A new writer takes everything. -/
theorem fits_new (bytes : Bytes) : Writer.fits {} bytes = true := rfl

/-- A writer that takes all of the bytes has them behind what it had. -/
theorem put_of_fits {writer : Writer} {bytes : Bytes} (takes : writer.fits bytes = true) :
    writer.put bytes = { writer with written := writer.written ++ bytes } := by
  rcases writer with ⟨_ | limit, written⟩
  · rfl
  · simp only [put, take, List.take_of_length_le (of_decide_eq_true takes)]

/-- Bytes may be put in two parts. -/
theorem put_put (writer : Writer) (earlier later : Bytes) :
    (writer.put earlier).put later = writer.put (earlier ++ later) := by
  rcases writer with ⟨_ | limit, written⟩
  · simp only [put, take, List.append_assoc]
  · simp only [put, take, ← List.append_assoc]
    generalize written ++ earlier = front
    have room : limit - min limit front.length = limit - front.length := by omega
    rw [List.take_append, List.take_append, List.take_take, Nat.min_self, List.length_take, room]

/-- A writer takes two parts of bytes when it takes the one and then the other. -/
theorem fits_append (writer : Writer) (earlier later : Bytes) :
    writer.fits (earlier ++ later) = true ↔
      writer.fits earlier = true ∧ (writer.put earlier).fits later = true := by
  rcases writer with ⟨_ | limit, written⟩
  · simp [fits, put]
  · simp only [fits, put, take, decide_eq_true_eq, List.length_append, List.length_take]
    omega

/-! ## Limits -/

/-- The writer without its limit. It has no failure of its own any more, since nothing goes beyond
its limit. -/
def unlimited (writer : Writer) : Writer := { written := writer.written }

/-- A writer that holds no more than its limit stays as it is when nothing is put. -/
theorem put_nil {writer : Writer} (within : writer.fits [] = true) : writer.put [] = writer := by
  rw [put_of_fits within, List.append_nil]

/-- No writer holds more than its limit after something was put. -/
theorem fits_nil_put (writer : Writer) (bytes : Bytes) : (writer.put bytes).fits [] = true := by
  rcases writer with ⟨_ | limit, written⟩
  · rfl
  · simp only [fits, put, take, List.append_nil, decide_eq_true_eq]
    exact List.length_take_le ..

@[simp] theorem fits_unlimited (writer : Writer) (bytes : Bytes) :
    writer.unlimited.fits bytes = true := rfl

/-- A limit that is not reached makes no difference. -/
theorem unlimited_put {writer : Writer} {bytes : Bytes} (takes : writer.fits bytes = true) :
    (writer.put bytes).unlimited = writer.unlimited.put bytes := by
  rw [put_of_fits takes]
  rfl

end LowerComments.Writer
