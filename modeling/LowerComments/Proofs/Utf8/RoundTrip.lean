import LowerComments.Utf8.Decode

/-!
# Reading what was written

The bytes of a text are read back as the text (`decode_encode`), so writing a text
never makes a file that cannot be read as one. Each character is followed through
the decoder byte by byte: the first byte leaves a sequence that awaits the bytes of
the same code (`first_three`, `first_four`), and a byte that carries six bits of the
code brings the sequence further (`step_inner`) or completes it (`step_last`).
-/

set_option autoImplicit false

namespace LowerComments.Utf8

/-! ## Bytes of a code -/

theorem toNat_trailing (bits : Nat) : (trailing bits).toNat = 0x80 + bits % 0x40 := by
  unfold trailing
  rw [UInt8.toNat_ofNat']
  omega

theorem toNat_ofNat_of_lt {byte : Nat} (small : byte < 0x100) :
    (UInt8.ofNat byte).toNat = byte := by
  rw [UInt8.toNat_ofNat']
  exact Nat.mod_eq_of_lt small

theorem first_two {code : Nat} (above : 0x80 ≤ code) (below : code < 0x800) :
    first (0xC0 + code / 0x40) = .unfinished ⟨code / 0x40, 0x80, 0xBF, 0, 1⟩ := by
  unfold first
  rw [if_neg (by omega), if_neg (by omega), if_pos (by omega), Nat.add_sub_cancel_left]

/-- The first of three bytes awaits the second one. Surrogates are kept out by the interval for
the second byte. -/
theorem first_three {code : Nat} (above : 0x800 ≤ code) (below : code < 0x10000)
    (valid : code.isValidChar) :
    ∃ low high, first (0xE0 + code / 0x1000) = .unfinished ⟨code / 0x1000, low, high, 1, 1⟩ ∧
      low ≤ 0x80 + code / 0x40 % 0x40 ∧ 0x80 + code / 0x40 % 0x40 ≤ high := by
  unfold Nat.isValidChar at valid
  unfold first
  rw [if_neg (by omega), if_neg (by omega), if_neg (by omega)]
  by_cases lowest : code / 0x1000 = 0
  · rw [if_pos (by omega), lowest]
    exact ⟨_, _, rfl, by omega, by omega⟩
  · rw [if_neg (by omega)]
    by_cases surrogates : code / 0x1000 = 0xD
    · rw [if_pos (by omega), surrogates]
      exact ⟨_, _, rfl, by omega, by omega⟩
    · rw [if_neg (by omega), if_pos (by omega), Nat.add_sub_cancel_left]
      exact ⟨_, _, rfl, by omega, by omega⟩

/-- The first of four bytes awaits the second one. -/
theorem first_four {code : Nat} (above : 0x10000 ≤ code) (below : code < 0x110000) :
    ∃ low high, first (0xF0 + code / 0x40000) = .unfinished ⟨code / 0x40000, low, high, 2, 1⟩ ∧
      low ≤ 0x80 + code / 0x1000 % 0x40 ∧ 0x80 + code / 0x1000 % 0x40 ≤ high := by
  unfold first
  rw [if_neg (by omega), if_neg (by omega), if_neg (by omega), if_neg (by omega),
    if_neg (by omega), if_neg (by omega)]
  by_cases lowest : code / 0x40000 = 0
  · rw [if_pos (by omega), lowest]
    exact ⟨_, _, rfl, by omega, by omega⟩
  · rw [if_neg (by omega)]
    by_cases highest : code / 0x40000 = 4
    · rw [if_neg (by omega), if_pos (by omega), highest]
      exact ⟨_, _, rfl, by omega, by omega⟩
    · rw [if_pos (by omega), Nat.add_sub_cancel_left]
      exact ⟨_, _, rfl, by omega, by omega⟩

/-! ## Characters -/

/-- What reading the rest gives, with a character in front. -/
def withFirst (letter : Char) (rest : Except Fault (List Char)) : Except Fault (List Char) :=
  match rest with
  | .ok text => .ok (letter :: text)
  | .error fault => .error fault

theorem decodeFrom_complete {index code : Nat} {state : Option Unfinished} {byte : UInt8}
    {rest : Bytes} (complete : step state byte.toNat = .complete code) :
    decodeFrom index state (byte :: rest) =
      withFirst (Char.ofNat code) (decodeFrom (index + taken state + 1) none rest) := by
  rw [decodeFrom, complete]
  rfl

theorem decodeFrom_unfinished {index : Nat} {state : Option Unfinished}
    {sequence : Unfinished} {byte : UInt8} {rest : Bytes}
    (unfinished : step state byte.toNat = .unfinished sequence) :
    decodeFrom index state (byte :: rest) = decodeFrom index (some sequence) rest := by
  rw [decodeFrom, unfinished]

/-- A first byte below 0x100 is read as its number. -/
theorem step_first {byte : Nat} (small : byte < 0x100) :
    step none (UInt8.ofNat byte).toNat = first byte := by
  rw [toNat_ofNat_of_lt small]
  rfl

/-- The last byte of a sequence completes the code. -/
theorem step_last {code low high length : Nat} (above : low ≤ 0x80 + code % 0x40)
    (below : 0x80 + code % 0x40 ≤ high) :
    step (some ⟨code / 0x40, low, high, 0, length⟩) (trailing code).toNat = .complete code := by
  have whole : code / 0x40 * 0x40 + code % 0x40 = code := by omega
  rw [step, Unfinished.next, toNat_trailing, if_pos ⟨above, below⟩, Nat.add_sub_cancel_left]
  exact congrArg Step.complete whole

/-- A byte inside a sequence brings six more bits of the code. -/
theorem step_inner {bits code low high more length : Nat} (same : code = bits / 0x40)
    (above : low ≤ 0x80 + bits % 0x40) (below : 0x80 + bits % 0x40 ≤ high) :
    step (some ⟨code, low, high, more + 1, length⟩) (trailing bits).toNat =
      .unfinished ⟨bits, 0x80, 0xBF, more, length + 1⟩ := by
  have whole : code * 0x40 + bits % 0x40 = bits := by omega
  rw [step, Unfinished.next, toNat_trailing, if_pos ⟨above, below⟩, Nat.add_sub_cancel_left]
  exact congrArg (fun bits => Step.unfinished ⟨bits, 0x80, 0xBF, more, length + 1⟩) whole

/-- **The bytes of a character are read as that character.** -/
theorem decodeFrom_encodeCode (index : Nat) {code : Nat} (valid : code.isValidChar)
    (rest : Bytes) :
    decodeFrom index none (encodeCode code ++ rest) =
      withFirst (Char.ofNat code) (decodeFrom (index + (encodeCode code).length) none rest) := by
  have bounded : code < 0x110000 := by
    unfold Nat.isValidChar at valid
    omega
  unfold encodeCode
  by_cases one : code < 0x80
  · have lead : step none (UInt8.ofNat code).toNat = .complete code := by
      rw [step_first (by omega), first, if_pos one]
    rw [if_pos one, List.singleton_append, decodeFrom_complete lead]
    rfl
  · rw [if_neg one]
    by_cases two : code < 0x800
    · have lead := (step_first (by omega)).trans (first_two (Nat.le_of_not_lt one) two)
      rw [if_pos two, List.cons_append, List.singleton_append, decodeFrom_unfinished lead,
        decodeFrom_complete (step_last (by omega) (by omega))]
      rfl
    · rw [if_neg two]
      by_cases three : code < 0x10000
      · obtain ⟨low, high, found, above, below⟩ :=
          first_three (Nat.le_of_not_lt two) three valid
        have lead := (step_first (by omega)).trans found
        rw [if_pos three, List.cons_append, List.cons_append, List.singleton_append,
          decodeFrom_unfinished lead,
          decodeFrom_unfinished (step_inner (by omega) above below),
          decodeFrom_complete (step_last (by omega) (by omega))]
        rfl
      · obtain ⟨low, high, found, above, below⟩ :=
          first_four (Nat.le_of_not_lt three) bounded
        have lead := (step_first (by omega)).trans found
        rw [if_neg three, List.cons_append, List.cons_append, List.cons_append,
          List.singleton_append, decodeFrom_unfinished lead,
          decodeFrom_unfinished (step_inner (by omega) above below),
          decodeFrom_unfinished (step_inner (by omega) (by omega) (by omega)),
          decodeFrom_complete (step_last (by omega) (by omega))]
        rfl

theorem decodeFrom_encode (index : Nat) (text : List Char) :
    decodeFrom index none (encode text) = .ok text := by
  induction text generalizing index with
  | nil => rfl
  | cons letter text ih =>
    have valid : letter.toNat.isValidChar := letter.valid
    have shape : encode (letter :: text) = encodeCode letter.toNat ++ encode text :=
      List.flatMap_cons ..
    rw [shape, decodeFrom_encodeCode index valid, ih, Char.ofNat_toNat]
    rfl

/-- **The bytes of a text are read back as the text.** -/
theorem decode_encode (text : List Char) : decode (encode text) = .ok text :=
  decodeFrom_encode 0 text

/-- Different texts have different bytes. -/
theorem encode_injective {left right : List Char} (same : encode left = encode right) :
    left = right := by
  have read := decode_encode left
  rw [same, decode_encode] at read
  exact (Except.ok.inj read).symm

theorem encode_inj {left right : List Char} : encode left = encode right ↔ left = right :=
  ⟨encode_injective, congrArg encode⟩

end LowerComments.Utf8

namespace LowerComments

/-- Different strings have different bytes. -/
theorem Bytes.ofString_injective {left right : String}
    (same : Bytes.ofString left = Bytes.ofString right) : left = right :=
  String.toList_inj.mp (Utf8.encode_injective same)

end LowerComments
