import LowerComments.Proofs.Utf8.Boundaries
import Mathlib.Tactic.SplitIfs

/-!
# Which bytes are a text

Bytes are well-formed when the standard library holds them for UTF-8, and then they are the
bytes of a text (`wellFormed_iff`). The decoder takes them and no others, and it gives the
one text that they are the bytes of (`decode_eq_ok_iff`). Whatever it refuses has a longest
well-formed front, and the fault tells how long that front is (`longestFront_of_decode`).

Both are read off one description of the decoder in the middle of its work
(`accounts_decodeFrom`). Inside a sequence, the bytes seen so far open each character
whose code begins as the sequence says and whose next byte is in the interval that the
sequence awaits (`Opens`). The intervals for the second byte are what makes all of these
codes valid and all of these characters as long as their first byte tells.
-/

set_option autoImplicit false

namespace LowerComments.Utf8

/-! ## Unfinished sequences -/

/-- The weight of six bits with this many bytes behind theirs. -/
def weight : Nat → Nat
  | 0 => 1
  | more + 1 => weight more * 0x40

/-- The bytes at the end of a character that carry six bits each: the last one and `more` bytes
in front of it. -/
def trailers (code : Nat) : Nat → Bytes
  | 0 => [trailing code]
  | more + 1 => trailing (code / weight (more + 1)) :: trailers code more

/-- A character with this code begins as the sequence says, and its next byte is one that the
sequence awaits. -/
structure Unfinished.Awaits (sequence : Unfinished) (code : Nat) : Prop where
  begins : code / weight (sequence.more + 1) = sequence.code
  low : sequence.low ≤ 0x80 + code / weight sequence.more % 0x40
  high : 0x80 + code / weight sequence.more % 0x40 ≤ sequence.high

/-- The bytes seen so far open every character that the unfinished sequence can become. -/
structure Opens (sequence : Unfinished) (seen : Bytes) : Prop where
  length : seen.length = sequence.length
  low : 0x80 ≤ sequence.low
  high : sequence.high ≤ 0xBF
  valid : ∀ code, sequence.Awaits code → code.isValidChar
  bytes : ∀ code, sequence.Awaits code → encodeCode code = seen ++ trailers code sequence.more

/-- The bytes seen since the start of the character. -/
def Opened : Option Unfinished → Bytes → Prop
  | none, seen => seen = []
  | some sequence, seen => Opens sequence seen

theorem Opened.length {state : Option Unfinished} {seen : Bytes} (opened : Opened state seen) :
    taken state = seen.length := by
  cases state with
  | none =>
    obtain rfl : seen = [] := opened
    rfl
  | some sequence => exact (Opens.length opened).symm

/-! ## The first byte -/

section First

variable {byte : UInt8} {code low high : Nat}

theorem trailing_eq (same : 0x80 + code % 0x40 = byte.toNat) : trailing code = byte := by
  rw [← UInt8.toNat_inj, toNat_trailing, same]

theorem ofNat_eq {number : Nat} (same : number = byte.toNat) : UInt8.ofNat number = byte := by
  rw [same, UInt8.ofNat_toNat]

theorem opens_two (lead : byte.toNat = 0xC0 + code) (above : 2 ≤ code) (below : code < 0x20) :
    Opens ⟨code, 0x80, 0xBF, 0, 1⟩ [byte] := by
  refine ⟨rfl, Nat.le_refl _, Nat.le_refl _, fun other awaits => ?_, fun other awaits => ?_⟩
  all_goals
    have begins : other / 0x40 = code := awaits.begins
  · unfold Nat.isValidChar
    omega
  · have head : 0xC0 + other / 0x40 = byte.toNat := by omega
    rw [encodeCode, if_neg (by omega), if_pos (by omega), ofNat_eq head]
    rfl

/-- The interval for the second byte keeps out longer forms than needed and surrogates. -/
theorem opens_three (lead : byte.toNat = 0xE0 + code) (below : code < 0x10)
    (bounds : 0x80 ≤ low ∧ high ≤ 0xBF) (lowest : code = 0 → 0xA0 ≤ low)
    (surrogates : code = 0xD → high ≤ 0x9F) : Opens ⟨code, low, high, 1, 1⟩ [byte] := by
  refine ⟨rfl, bounds.1, bounds.2, fun other awaits => ?_, fun other awaits => ?_⟩
  all_goals
    have begins : other / 0x1000 = code := awaits.begins
    have least : low ≤ 0x80 + other / 0x40 % 0x40 := awaits.low
    have most : 0x80 + other / 0x40 % 0x40 ≤ high := awaits.high
  · unfold Nat.isValidChar
    omega
  · have head : 0xE0 + other / 0x1000 = byte.toNat := by omega
    rw [encodeCode, if_neg (by omega), if_neg (by omega), if_pos (by omega), ofNat_eq head]
    rfl

/-- The interval for the second byte keeps out longer forms than needed and codes beyond the last
character. -/
theorem opens_four (lead : byte.toNat = 0xF0 + code) (below : code ≤ 4)
    (bounds : 0x80 ≤ low ∧ high ≤ 0xBF) (lowest : code = 0 → 0x90 ≤ low)
    (highest : code = 4 → high ≤ 0x8F) : Opens ⟨code, low, high, 2, 1⟩ [byte] := by
  refine ⟨rfl, bounds.1, bounds.2, fun other awaits => ?_, fun other awaits => ?_⟩
  all_goals
    have begins : other / 0x40000 = code := awaits.begins
    have least : low ≤ 0x80 + other / 0x1000 % 0x40 := awaits.low
    have most : 0x80 + other / 0x1000 % 0x40 ≤ high := awaits.high
  · unfold Nat.isValidChar
    omega
  · have head : 0xF0 + other / 0x40000 = byte.toNat := by omega
    rw [encodeCode, if_neg (by omega), if_neg (by omega), if_neg (by omega), ofNat_eq head]
    rfl

/-- **The first of several bytes opens every character that the sequence can become.** -/
theorem opens_of_first {sequence : Unfinished}
    (unfinished : first byte.toNat = .unfinished sequence) : Opens sequence [byte] := by
  unfold first at unfinished
  split_ifs at unfinished
  all_goals obtain rfl := Step.unfinished.inj unfinished
  · exact opens_two (by omega) (by omega) (by omega)
  · exact opens_three (by omega) (by omega) (by omega) (by omega) (by omega)
  · exact opens_three (by omega) (by omega) (by omega) (by omega) (by omega)
  · exact opens_three (by omega) (by omega) (by omega) (by omega) (by omega)
  · exact opens_four (by omega) (by omega) (by omega) (by omega) (by omega)
  · exact opens_four (by omega) (by omega) (by omega) (by omega) (by omega)
  · exact opens_four (by omega) (by omega) (by omega) (by omega) (by omega)

/-- A byte that is a character by itself. -/
theorem encodeCode_of_first (complete : first byte.toNat = .complete code) :
    code.isValidChar ∧ encodeCode code = [byte] := by
  unfold first at complete
  split_ifs at complete with small
  obtain rfl := Step.complete.inj complete
  refine ⟨.inl (by omega), ?_⟩
  rw [encodeCode, if_pos small, ofNat_eq rfl]

end First

/-! ## One more byte -/

section Step

variable {sequence : Unfinished} {state : Option Unfinished} {seen : Bytes} {byte : UInt8}
  {code : Nat}

/-- The byte that ends a sequence completes one of the characters that were open. -/
theorem Opens.complete (opens : Opens sequence seen)
    (complete : sequence.next byte.toNat = .complete code) :
    code.isValidChar ∧ encodeCode code = seen ++ [byte] := by
  obtain ⟨lead, low, high, more, length⟩ := sequence
  rw [Unfinished.next] at complete
  split at complete
  · next inside =>
    have least : 0x80 ≤ low := opens.low
    have most : high ≤ 0xBF := opens.high
    cases more with
    | succ more => exact absurd complete (by simp)
    | zero =>
      obtain rfl := Step.complete.inj complete
      simp only at inside
      have same : 0x80 + (lead * 0x40 + (byte.toNat - 0x80)) % 0x40 = byte.toNat := by omega
      have awaits : Unfinished.Awaits ⟨lead, low, high, 0, length⟩
          (lead * 0x40 + (byte.toNat - 0x80)) := by
        refine ⟨?_, ?_, ?_⟩
        · simp only [weight, Nat.one_mul]
          omega
        · simp only [weight, Nat.div_one]
          omega
        · simp only [weight, Nat.div_one]
          omega
      refine ⟨opens.valid _ awaits, ?_⟩
      rw [opens.bytes _ awaits, trailers, trailing_eq same]
  · exact absurd complete (by simp)

/-- A byte inside a sequence leaves those characters open that go on with it. -/
theorem Opens.unfinished {next : Unfinished} (opens : Opens sequence seen)
    (unfinished : sequence.next byte.toNat = .unfinished next) : Opens next (seen ++ [byte]) := by
  obtain ⟨lead, low, high, more, length⟩ := sequence
  rw [Unfinished.next] at unfinished
  split at unfinished
  · next inside =>
    have least : 0x80 ≤ low := opens.low
    have most : high ≤ 0xBF := opens.high
    cases more with
    | zero => exact absurd unfinished (by simp)
    | succ more =>
      obtain rfl := Step.unfinished.inj unfinished
      simp only at inside
      -- A character that goes on with this byte was open before.
      have earlier (code : Nat) (awaits : Unfinished.Awaits
          ⟨lead * 0x40 + (byte.toNat - 0x80), 0x80, 0xBF, more, length + 1⟩ code) :
          0x80 + code / weight (more + 1) % 0x40 = byte.toNat ∧
            Unfinished.Awaits ⟨lead, low, high, more + 1, length⟩ code := by
        have begins : code / weight (more + 1) = lead * 0x40 + (byte.toNat - 0x80) :=
          awaits.begins
        have whole : code / weight (more + 1 + 1) = code / weight (more + 1) / 0x40 := by
          rw [Nat.div_div_eq_div_mul, weight]
        refine ⟨by omega, ?_, ?_, ?_⟩
        · simp only [whole]
          omega
        · simp only
          omega
        · simp only
          omega
      refine ⟨?_, Nat.le_refl _, Nat.le_refl _, fun code awaits => ?_, fun code awaits => ?_⟩
      · rw [List.length_append, opens.length]
        rfl
      · exact opens.valid code (earlier code awaits).2
      · obtain ⟨same, before⟩ := earlier code awaits
        rw [opens.bytes code before, trailers, trailing_eq same, List.append_assoc]
        rfl
  · exact absurd unfinished (by simp)

/-- **A byte that completes a character** is the last of its bytes. -/
theorem Opened.complete (opened : Opened state seen)
    (complete : step state byte.toNat = .complete code) :
    code.isValidChar ∧ encodeCode code = seen ++ [byte] := by
  cases state with
  | none =>
    obtain rfl : seen = [] := opened
    exact encodeCode_of_first complete
  | some sequence => exact Opens.complete opened complete

/-- **A byte that completes no character** is one of the bytes that are seen of it. -/
theorem Opened.unfinished (opened : Opened state seen)
    (unfinished : step state byte.toNat = .unfinished sequence) :
    Opens sequence (seen ++ [byte]) := by
  cases state with
  | none =>
    obtain rfl : seen = [] := opened
    exact opens_of_first unfinished
  | some before => exact Opens.unfinished opened unfinished

end Step

/-! ## All bytes -/

/-- What the answer of the decoder says about bytes that start at an index: they are those of the
text that was read, or those of some text reach to the index of the fault. -/
def Accounts (index : Nat) (bytes : Bytes) : Except Fault (List Char) → Prop
  | .ok text => bytes = encode text
  | .error fault => ∃ text rest, bytes = encode text ++ rest ∧
      fault.index = index + (encode text).length

/-- A character in front of what is accounted for. -/
theorem Accounts.withFirst {index : Nat} {letter : Char} {bytes : Bytes}
    {answer : Except Fault (List Char)}
    (accounts : Accounts (index + (encodeCode letter.toNat).length) bytes answer) :
    Accounts index (encodeCode letter.toNat ++ bytes) (withFirst letter answer) := by
  cases answer with
  | ok text =>
    obtain rfl : bytes = encode text := accounts
    exact (encode_cons letter text).symm
  | error fault =>
    obtain ⟨text, rest, rfl, reached⟩ := accounts
    refine ⟨letter :: text, rest, ?_, ?_⟩
    · rw [encode_cons, List.append_assoc]
    · rw [reached, encode_cons, List.length_append, Nat.add_assoc]

/-- **The decoder accounts for the bytes**, from any place inside a character on. The induction is
on the bytes to come, with those that were seen of the current character in front of them. -/
theorem accounts_decodeFrom {state : Option Unfinished} {seen : Bytes}
    (opened : Opened state seen) (index : Nat) (bytes : Bytes) :
    Accounts index (seen ++ bytes) (decodeFrom index state bytes) := by
  induction bytes generalizing state seen index with
  | nil =>
    cases state with
    | none =>
      obtain rfl : seen = [] := opened
      rfl
    | some sequence => exact ⟨[], seen, by simp, rfl⟩
  | cons byte rest ih =>
    cases stepped : step state byte.toNat with
    | complete code =>
      obtain ⟨valid, bytes⟩ := opened.complete stepped
      have letter : (Char.ofNat code).toNat = code := by
        rw [Char.ofNat, dif_pos valid]
        rfl
      have none : Opened none [] := rfl
      have later := ih none (index + taken state + 1)
      rw [← letter] at bytes
      rw [decodeFrom_complete stepped, List.append_cons, ← bytes]
      refine Accounts.withFirst ?_
      rwa [bytes, List.length_append, ← opened.length, ← Nat.add_assoc]
    | unfinished sequence =>
      have still : Opened (some sequence) (seen ++ [byte]) := opened.unfinished stepped
      rw [decodeFrom_unfinished stepped, List.append_cons]
      exact ih still index
    | refused =>
      rw [decodeFrom, stepped]
      exact ⟨[], seen ++ byte :: rest, rfl, rfl⟩

theorem accounts_start (index : Nat) (bytes : Bytes) :
    Accounts index bytes (decodeFrom index none bytes) := by
  have start : Opened none [] := rfl
  exact accounts_decodeFrom start index bytes

/-- **The decoder reads exactly the bytes of texts**, and gives the text that they are of. -/
theorem decode_eq_ok_iff {bytes : Bytes} {text : List Char} :
    decode bytes = .ok text ↔ bytes = encode text := by
  constructor
  · intro read
    have accounts : Accounts 0 bytes (decode bytes) := accounts_start 0 bytes
    rwa [read] at accounts
  · rintro rfl
    exact decode_encode text

theorem ne_encode_of_fault {bytes : Bytes} {fault : Fault} (refused : decode bytes = .error fault)
    (text : List Char) : bytes ≠ encode text := by
  rintro rfl
  exact absurd ((decode_encode text).symm.trans refused) (by simp)

/-! ## Well-formed bytes -/

/-- The bytes of a character are those that the standard library gives it. -/
theorem encodeCode_eq (letter : Char) :
    encodeCode letter.toNat = String.utf8EncodeChar letter := by
  have bound : letter.toNat < 0x110000 := by
    have valid : letter.toNat.isValidChar := letter.valid
    unfold Nat.isValidChar at valid
    omega
  have number : letter.val.toNat = letter.toNat := rfl
  have last (code : Nat) : trailing code = UInt8.ofNat (code % 64 + 128) := by
    rw [trailing, Nat.add_comm]
  have one : letter.toNat ≤ 127 ↔ letter.toNat < 0x80 := Nat.lt_succ_iff.symm
  have two : letter.toNat ≤ 2047 ↔ letter.toNat < 0x800 := Nat.lt_succ_iff.symm
  have three : letter.toNat ≤ 65535 ↔ letter.toNat < 0x10000 := Nat.lt_succ_iff.symm
  unfold encodeCode String.utf8EncodeChar
  simp only [number, last, one, two, three]
  split_ifs
  · rfl
  · rw [show letter.toNat / 64 % 32 + 192 = 0xC0 + letter.toNat / 0x40 by omega]
  · rw [show letter.toNat / 4096 % 16 + 224 = 0xE0 + letter.toNat / 0x1000 by omega]
  · rw [show letter.toNat / 262144 % 8 + 240 = 0xF0 + letter.toNat / 0x40000 by omega]

/-- The bytes are well-formed UTF-8. -/
def WellFormed (bytes : Bytes) : Prop :=
  bytes.toByteArray.IsValidUTF8

/-- **Bytes are well-formed when they are those of a text.** -/
theorem wellFormed_iff {bytes : Bytes} : WellFormed bytes ↔ ∃ text, bytes = encode text := by
  have same (text : List Char) : text.flatMap String.utf8EncodeChar = encode text := by
    rw [encode, funext encodeCode_eq]
  constructor
  · rintro ⟨text, whole⟩
    exact ⟨text, (List.toByteArray_inj.mp whole).trans (same text)⟩
  · rintro ⟨text, rfl⟩
    exact ⟨text, by rw [List.utf8Encode, same]⟩

/-- **The decoder refuses exactly the bytes that are not well-formed.** -/
theorem exists_fault_iff {bytes : Bytes} :
    (∃ fault, decode bytes = .error fault) ↔ ¬ WellFormed bytes := by
  rw [wellFormed_iff]
  simp only [← decode_eq_ok_iff]
  cases decode bytes <;> simp

/-- The longest front of the bytes that is well-formed has this length. -/
structure LongestFront (bytes : Bytes) (length : Nat) : Prop where
  within : length ≤ bytes.length
  wellFormed : WellFormed (bytes.take length)
  longest : ∀ other ≤ bytes.length, WellFormed (bytes.take other) → other ≤ length

/-- A fault behind the bytes of a text is not found inside them. -/
theorem index_le_of_decodeFrom {text : List Char} {rest : Bytes} {index : Nat} {fault : Fault}
    (refused : decodeFrom index none (encode text ++ rest) = .error fault) :
    index + (encode text).length ≤ fault.index := by
  induction text generalizing index with
  | nil =>
    have accounts := accounts_start index ([] ++ rest)
    rw [encode_nil] at refused
    rw [refused] at accounts
    obtain ⟨_, _, _, reached⟩ := accounts
    rw [reached]
    exact Nat.add_le_add_left (Nat.zero_le _) index
  | cons letter text ih =>
    have first := decodeFrom_encodeCode index letter.valid (encode text ++ rest)
    rw [encode_cons, List.append_assoc, Char.toNat, first] at refused
    rw [encode_cons, Char.toNat, List.length_append, ← Nat.add_assoc]
    unfold withFirst at refused
    split at refused
    · exact absurd refused (by simp)
    · next behind => exact ih (behind.trans refused)

/-- **The fault of bytes that are not a text** tells how long their longest well-formed front
is. -/
theorem longestFront_of_decode {bytes : Bytes} {fault : Fault}
    (refused : decode bytes = .error fault) : LongestFront bytes fault.index := by
  have accounts := accounts_start 0 bytes
  rw [show decodeFrom 0 none bytes = .error fault from refused] at accounts
  obtain ⟨text, rest, whole, reached⟩ := accounts
  rw [Nat.zero_add] at reached
  refine ⟨?_, wellFormed_iff.mpr ⟨text, ?_⟩, ?_⟩
  · rw [whole, reached, List.length_append]
    exact Nat.le_add_right _ _
  · rw [whole, reached, List.take_left]
  · intro other short opened
    obtain ⟨front, opens⟩ := wellFormed_iff.mp opened
    have parts : encode front ++ bytes.drop other = bytes :=
      opens ▸ List.take_append_drop other bytes
    have length : (encode front).length = other := by
      rw [← opens, List.length_take, Nat.min_eq_left short]
    have behind : 0 + (encode front).length ≤ fault.index :=
      index_le_of_decodeFrom (parts.symm ▸ refused)
    omega

end LowerComments.Utf8
