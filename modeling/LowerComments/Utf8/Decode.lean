import LowerComments.Utf8.Encode

/-!
# Reading bytes as characters

The decoder takes the bytes one at a time. Between two bytes it either stands at
the start of a character or inside a sequence that the bytes so far leave
unfinished; an unfinished sequence knows which bytes may come next. The interval
for the second byte is narrower than that for later ones after four of the first
bytes. That is what keeps out codes in a longer form than needed, surrogates and
codes beyond the last character.

Where a byte does not fit, the sequence before it is malformed and ends there.
`decode` refuses such a text and tells where the malformed sequence starts and
how long it is. `decodeLossy` puts one replacement character in its place and
reads the byte again as the start of the next character.
-/

set_option autoImplicit false

namespace LowerComments.Utf8

/-- A sequence of `length` bytes that awaits a byte between `low` and `high`, and `more` bytes
after that one. The bits so far make up `code`. -/
structure Unfinished where
  code : Nat
  low : Nat
  high : Nat
  more : Nat
  length : Nat
  deriving DecidableEq, Repr

/-- What one more byte makes of a sequence. -/
inductive Step where
  /-- The sequence is complete and stands for this code. -/
  | complete (code : Nat)
  /-- The sequence goes on. -/
  | unfinished (sequence : Unfinished)
  /-- The byte does not belong to the sequence. -/
  | refused
  deriving DecidableEq, Repr

/-- The first byte of a character. -/
def first (byte : Nat) : Step :=
  if byte < 0x80 then .complete byte
  else if byte < 0xC2 then .refused
  else if byte < 0xE0 then .unfinished ⟨byte - 0xC0, 0x80, 0xBF, 0, 1⟩
  else if byte = 0xE0 then .unfinished ⟨0x0, 0xA0, 0xBF, 1, 1⟩
  else if byte = 0xED then .unfinished ⟨0xD, 0x80, 0x9F, 1, 1⟩
  else if byte < 0xF0 then .unfinished ⟨byte - 0xE0, 0x80, 0xBF, 1, 1⟩
  else if byte = 0xF0 then .unfinished ⟨0x0, 0x90, 0xBF, 2, 1⟩
  else if byte < 0xF4 then .unfinished ⟨byte - 0xF0, 0x80, 0xBF, 2, 1⟩
  else if byte = 0xF4 then .unfinished ⟨0x4, 0x80, 0x8F, 2, 1⟩
  else .refused

/-- The next byte of an unfinished sequence. -/
def Unfinished.next (sequence : Unfinished) (byte : Nat) : Step :=
  if sequence.low ≤ byte ∧ byte ≤ sequence.high then
    let code := sequence.code * 0x40 + (byte - 0x80)
    match sequence.more with
    | 0 => .complete code
    | more + 1 => .unfinished ⟨code, 0x80, 0xBF, more, sequence.length + 1⟩
  else .refused

/-- One byte, at the start of a character or inside a sequence. -/
def step : Option Unfinished → Nat → Step
  | none, byte => first byte
  | some sequence, byte => sequence.next byte

/-- The number of bytes taken since the start of the character. -/
def taken : Option Unfinished → Nat
  | none => 0
  | some sequence => sequence.length

/-- Why bytes are not a text: the well-formed part ends at `index`, where a malformed sequence
of `length` bytes starts. Without a length, the bytes end inside a sequence that was well-formed
so far. -/
structure Fault where
  index : Nat
  length : Option Nat
  deriving DecidableEq, Repr

/-- Reads the rest of the bytes, with the current character started at `index`. -/
def decodeFrom (index : Nat) : Option Unfinished → Bytes → Except Fault (List Char)
  | none, [] => .ok []
  | some _, [] => .error ⟨index, none⟩
  | state, byte :: rest =>
    match step state byte.toNat with
    | .complete code =>
      match decodeFrom (index + taken state + 1) none rest with
      | .ok text => .ok (Char.ofNat code :: text)
      | .error fault => .error fault
    | .unfinished sequence => decodeFrom index (some sequence) rest
    | .refused => .error ⟨index, some (max 1 (taken state))⟩

/-- The text that the bytes stand for. -/
def decode (bytes : Bytes) : Except Fault (List Char) :=
  decodeFrom 0 none bytes

/-- The text as far as it is well-formed is shown, and each malformed sequence is shown as this. -/
def replacement : Char := '\uFFFD'

/-- Reads the rest of the bytes, with a replacement for each malformed sequence. -/
def decodeLossyFrom : Option Unfinished → Bytes → List Char
  | none, [] => []
  | some _, [] => [replacement]
  | state, byte :: rest =>
    match step state byte.toNat with
    | .complete code => Char.ofNat code :: decodeLossyFrom none rest
    | .unfinished sequence => decodeLossyFrom (some sequence) rest
    | .refused =>
      match state with
      | none => replacement :: decodeLossyFrom none rest
      | some _ =>
        replacement :: match first byte.toNat with
          | .complete code => Char.ofNat code :: decodeLossyFrom none rest
          | .unfinished sequence => decodeLossyFrom (some sequence) rest
          | .refused => replacement :: decodeLossyFrom none rest

/-- The text of the bytes for display. -/
def decodeLossy (bytes : Bytes) : List Char :=
  decodeLossyFrom none bytes

/-- The fault in words. -/
def Fault.message (fault : Fault) : String :=
  match fault.length with
  | some length =>
    "invalid utf-8 sequence of " ++ toString length ++ " bytes from index " ++
      toString fault.index
  | none => "incomplete utf-8 byte sequence from index " ++ toString fault.index

end LowerComments.Utf8

namespace LowerComments

/-- The bytes as a string for display. -/
def Bytes.display (bytes : Bytes) : String :=
  String.ofList (Utf8.decodeLossy bytes)

end LowerComments
