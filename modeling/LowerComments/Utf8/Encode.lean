import LowerComments.Bytes

/-!
# Characters as bytes

UTF-8 writes a character in one to four bytes, the shortest form that holds its
code. The first byte tells the number of bytes, and each further byte carries
six bits of the code.
-/

set_option autoImplicit false

namespace LowerComments.Utf8

/-- A byte that carries six bits of a code. -/
def trailing (bits : Nat) : UInt8 :=
  UInt8.ofNat (0x80 + bits % 0x40)

/-- The bytes of a character code. -/
def encodeCode (code : Nat) : Bytes :=
  if code < 0x80 then [UInt8.ofNat code]
  else if code < 0x800 then [UInt8.ofNat (0xC0 + code / 0x40), trailing code]
  else if code < 0x10000 then
    [UInt8.ofNat (0xE0 + code / 0x1000), trailing (code / 0x40), trailing code]
  else
    [UInt8.ofNat (0xF0 + code / 0x40000), trailing (code / 0x1000), trailing (code / 0x40),
      trailing code]

/-- The bytes of a text. -/
def encode (text : List Char) : Bytes :=
  text.flatMap fun letter => encodeCode letter.toNat

end LowerComments.Utf8

namespace LowerComments

/-- The bytes of a string. -/
def Bytes.ofString (text : String) : Bytes :=
  Utf8.encode text.toList

end LowerComments
