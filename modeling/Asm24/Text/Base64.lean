/-!
# Base 64

Bytes that are written as letters, digits and two signs, four characters for
three bytes.  The last four end with one or two equals signs if bytes are
missing.  Line breaks do not count.
-/

namespace Asm24.Text

/-- The six bits of a character. -/
def sixBits? (char : Char) : Option Nat :=
  if 'A' ≤ char ∧ char ≤ 'Z' then some (char.toNat - 65)
  else if 'a' ≤ char ∧ char ≤ 'z' then some (char.toNat - 71)
  else if '0' ≤ char ∧ char ≤ '9' then some (char.toNat + 4)
  else if char = '+' then some 62
  else if char = '/' then some 63
  else none

/-- The first `count` bytes of 24 bits. -/
def leadingBytes (count bits : Nat) : List UInt8 :=
  [UInt8.ofNat (bits / 0x10000), UInt8.ofNat (bits / 0x100),
    UInt8.ofNat bits].take count

/-- The bytes of characters in fours. -/
def readBase64? : List Char → Option (List UInt8)
  | [] => some []
  | [a, b, '=', '='] => do
      return leadingBytes 1 ((← sixBits? a) * 0x40000 + (← sixBits? b) * 0x1000)
  | [a, b, c, '='] => do
      return leadingBytes 2
        ((← sixBits? a) * 0x40000 + (← sixBits? b) * 0x1000 +
          (← sixBits? c) * 0x40)
  | a :: b :: c :: d :: rest => do
      let bits :=
        (← sixBits? a) * 0x40000 + (← sixBits? b) * 0x1000 + (← sixBits? c) *
          0x40 + (← sixBits? d)
      return leadingBytes 3 bits ++ (← readBase64? rest)
  | _ => none

/-- The bytes that a text writes, without regard to line breaks. -/
def ofBase64? (text : List Char) : Option (List UInt8) :=
  readBase64? (text.filter fun char => char != '\n' && char != '\r')

end Asm24.Text
