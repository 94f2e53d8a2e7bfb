import LowerComments.Proofs.Utf8.RoundTrip

/-!
# Where characters start in the bytes of a text

The first byte of a character is never one that carries six bits of a code, and all
of its later bytes are (`encodeCode_eq_cons`). So a text that is found in the bytes of
another one, at whatever byte index, starts there where a character starts: the other
text can be cut at that index, and the text opens its second part
(`exists_cut_of_prefix_drop`). A search in bytes and a search in characters therefore
find the same places.
-/

set_option autoImplicit false

namespace LowerComments.Utf8

/-- The byte carries six bits of a code, behind the first byte of its character. -/
def isTrailing (byte : UInt8) : Bool :=
  byte.toNat / 0x40 == 2

theorem isTrailing_trailing (bits : Nat) : isTrailing (trailing bits) = true := by
  rw [isTrailing, toNat_trailing, beq_iff_eq]
  omega

/-- A first byte is below the trailing ones or above them. -/
theorem isTrailing_ofNat {byte : Nat} (small : byte < 0x100)
    (outside : byte < 0x80 ∨ 0xC0 ≤ byte) : isTrailing (UInt8.ofNat byte) = false := by
  rw [isTrailing, toNat_ofNat_of_lt small, beq_eq_false_iff_ne]
  omega

/-- **The first byte of a character is not a trailing one, and all later ones are.** -/
theorem encodeCode_eq_cons {code : Nat} (valid : code.isValidChar) :
    ∃ lead rest, encodeCode code = lead :: rest ∧ isTrailing lead = false ∧
      ∀ byte ∈ rest, isTrailing byte = true := by
  have bounded : code < 0x110000 := by
    unfold Nat.isValidChar at valid
    omega
  unfold encodeCode
  by_cases one : code < 0x80
  · rw [if_pos one]
    exact ⟨_, [], rfl, isTrailing_ofNat (by omega) (.inl one), by simp⟩
  · rw [if_neg one]
    by_cases two : code < 0x800
    · rw [if_pos two]
      exact ⟨_, _, rfl, isTrailing_ofNat (by omega) (.inr (by omega)),
        by simp [isTrailing_trailing]⟩
    · rw [if_neg two]
      by_cases three : code < 0x10000
      · rw [if_pos three]
        exact ⟨_, _, rfl, isTrailing_ofNat (by omega) (.inr (by omega)),
          by simp [isTrailing_trailing]⟩
      · rw [if_neg three]
        exact ⟨_, _, rfl, isTrailing_ofNat (by omega) (.inr (by omega)),
          by simp [isTrailing_trailing]⟩

@[simp] theorem encode_nil : encode [] = [] := rfl

theorem encode_cons (letter : Char) (text : List Char) :
    encode (letter :: text) = encodeCode letter.toNat ++ encode text :=
  List.flatMap_cons ..

@[simp] theorem encode_append (front rest : List Char) :
    encode (front ++ rest) = encode front ++ encode rest :=
  List.flatMap_append ..

/-- The bytes of a text that starts with a character: a byte that is not a trailing one, the
trailing ones of the character, and the bytes of the rest. -/
theorem encode_cons_eq (letter : Char) :
    ∃ lead trail, (∀ text, encode (letter :: text) = lead :: (trail ++ encode text)) ∧
      isTrailing lead = false ∧ ∀ byte ∈ trail, isTrailing byte = true := by
  obtain ⟨lead, trail, bytes, leads, trails⟩ := encodeCode_eq_cons letter.valid
  refine ⟨lead, trail, fun text => ?_, leads, trails⟩
  rw [encode_cons, Char.toNat, bytes, List.cons_append]

/-- A text opens another one when its bytes open the bytes of the other. -/
theorem prefix_of_encode_prefix {left right : List Char} (opens : encode left <+: encode right) :
    left <+: right := by
  induction left generalizing right with
  | nil => exact List.nil_prefix
  | cons letter left ih =>
    obtain ⟨rest, whole⟩ := opens
    rw [encode_cons, List.append_assoc] at whole
    -- The first character is read off the bytes in both ways.
    have read := decodeFrom_encodeCode 0 letter.valid (encode left ++ rest)
    rw [← Char.toNat, whole, decodeFrom_encode, Char.ofNat_toNat] at read
    unfold withFirst at read
    split at read
    · next text _ =>
      rw [Except.ok.inj read, encode_cons] at whole
      rw [Except.ok.inj read]
      exact List.cons_prefix_cons.mpr ⟨rfl, ih ⟨rest, List.append_cancel_left whole⟩⟩
    · exact absurd read (by simp)

/-- **A text is found in the bytes of another one only where a character starts.** -/
theorem exists_cut_of_prefix_drop {marker text : List Char} (nonempty : marker ≠ []) {index : Nat}
    (found : encode marker <+: (encode text).drop index) :
    ∃ front rest, text = front ++ rest ∧ (encode front).length = index ∧ marker <+: rest := by
  obtain ⟨first, marker, rfl⟩ := List.exists_cons_of_ne_nil nonempty
  obtain ⟨markerLead, _, markerBytes, markerLeads, _⟩ := encode_cons_eq first
  induction text generalizing index with
  | nil =>
    rw [markerBytes, encode_nil, List.drop_nil] at found
    exact absurd (List.prefix_nil.mp found) (List.cons_ne_nil _ _)
  | cons letter text ih =>
    obtain ⟨lead, trail, bytes, _, trails⟩ := encode_cons_eq letter
    cases index with
    | zero => exact ⟨[], letter :: text, rfl, rfl, prefix_of_encode_prefix found⟩
    | succ index =>
      rw [bytes, List.drop_succ_cons] at found
      by_cases inside : index < trail.length
      · -- Inside a character the next byte is a trailing one.
        rw [List.drop_append_of_le_length (Nat.le_of_lt inside),
          List.drop_eq_getElem_cons inside, markerBytes] at found
        have same := (List.cons_prefix_cons.mp found).1
        rw [same, trails _ (List.getElem_mem inside)] at markerLeads
        exact absurd markerLeads (by simp)
      · obtain ⟨offset, rfl⟩ := Nat.exists_eq_add_of_le (Nat.le_of_not_lt inside)
        rw [List.drop_length_add_append] at found
        obtain ⟨front, rest, rfl, length, opens⟩ := ih found
        refine ⟨letter :: front, rest, rfl, ?_, opens⟩
        rw [bytes, List.length_cons, List.length_append, length]

end LowerComments.Utf8
