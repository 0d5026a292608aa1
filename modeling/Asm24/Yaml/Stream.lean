import Asm24.Text.Utf8
import Asm24.Yaml.Fault

/-!
# The characters of a document

A document is a byte string in UTF-8, or in UTF-16 if it starts with a
byte-order mark that says so.  Its characters are the printable ones, tabs and
line breaks.  Every common line break is read as a line feed; the separators of
lines and paragraphs are breaks that are kept as they are.
-/

namespace Asm24.Yaml

/-- Whether a character may stand in a document. -/
def isAllowed (code : Nat) : Bool :=
  code == 0x09 || code == 0x0A || code == 0x0D || code == 0x85 ||
    (0x20 ≤ code && code ≤ 0x7E) || (0xA0 ≤ code && code ≤ 0xD7FF) ||
    (0xE000 ≤ code && code ≤ 0xFFFD) || (0x10000 ≤ code && code ≤ 0x10FFFF)

/-- The character of a code point that may stand in a document. -/
def allowedChar (code : Nat) : Except EncodingProblem Char :=
  if isAllowed code then .ok (Char.ofNat code) else .error .controlCharacter

/--
How many bytes a character has that starts with a byte, and the payload of that
byte.
-/
def sequenceLength? (lead : Nat) : Option (Nat × Nat) :=
  if lead < 0x80 then some (1, lead)
  else if lead < 0xC0 then none
  else if lead < 0xE0 then some (2, lead - 0xC0)
  else if lead < 0xF0 then some (3, lead - 0xE0)
  else if lead < 0xF8 then some (4, lead - 0xF0)
  else none

/-- The code point of a payload and the bytes after it. -/
def codePoint (payload : Nat) (trail : List UInt8) :
    Except EncodingProblem Nat :=
  trail.foldlM (fun code byte =>
    match Text.continuation? byte with
    | some bits => .ok (code * 64 + bits)
    | none => .error .invalidTrail) payload

/-- The least code point that takes a number of bytes. -/
def leastCode : Nat → Nat
  | 2 => 0x80
  | 3 => 0x800
  | 4 => 0x10000
  | _ => 0

/--
The code point of a character at the start of a byte string, and the length of
the character.
-/
def leadingCode (lead : UInt8) (rest : List UInt8) :
    Except EncodingProblem (Nat × Nat) :=
  match sequenceLength? lead.toNat with
  | none => .error .invalidLead
  | some (length, payload) =>
      let trail := rest.take (length - 1)
      if trail.length + 1 < length then
        .error .incompleteSequence
      else do
        let code ← codePoint payload trail
        if code < leastCode length then
          .error .invalidLength
        else if (0xD800 ≤ code ∧ code ≤ 0xDFFF) ∨ 0x10FFFF < code then
          .error .invalidCharacter
        else
          .ok (code, length)

/--
The characters of a byte string in UTF-8, after its first `skipped` bytes.
-/
def ofUtf8After :
    (skipped : Nat) → List UInt8 → Except EncodingProblem (List Char)
  | _, [] => .ok []
  | skipped + 1, _ :: rest => ofUtf8After skipped rest
  | 0, lead :: rest => do
      let (code, length) ← leadingCode lead rest
      let char ← allowedChar code
      let text ← ofUtf8After (length - 1) rest
      return char :: text

/-- The characters of 16-bit units, of which the last may lack a byte. -/
def ofUnits (incomplete : Bool) : List Nat → Except EncodingProblem (List Char)
  | [] => if incomplete then .error .incompleteUnit else .ok []
  | unit :: rest =>
      if 0xDC00 ≤ unit ∧ unit ≤ 0xDFFF then
        .error .unexpectedLowSurrogate
      else if 0xD800 ≤ unit ∧ unit ≤ 0xDBFF then
        match rest with
        | [] => .error .incompletePair
        | low :: rest =>
            if 0xDC00 ≤ low ∧ low ≤ 0xDFFF then do
              let char ← allowedChar (0x10000 + (unit - 0xD800) * 0x400 +
                  (low - 0xDC00))
              let text ← ofUnits incomplete rest
              return char :: text
            else
              .error .missingLowSurrogate
      else do
        let char ← allowedChar unit
        let text ← ofUnits incomplete rest
        return char :: text

/-- The 16-bit units of a byte string, in one of the two orders of bytes. -/
def units (lowFirst : Bool) : List UInt8 → List Nat
  | first :: second :: rest =>
      (if lowFirst then second.toNat * 256 + first.toNat
        else first.toNat * 256 + second.toNat) ::
        units lowFirst rest
  | _ => []

/-- The characters of a byte string, in the encoding that its start shows. -/
def decodeBytes : List UInt8 → Except EncodingProblem (List Char)
  | 0xFF :: 0xFE :: rest => ofUnits (rest.length % 2 == 1) (units true rest)
  | 0xFE :: 0xFF :: rest => ofUnits (rest.length % 2 == 1) (units false rest)
  | 0xEF :: 0xBB :: 0xBF :: rest => ofUtf8After 0 rest
  | bytes => ofUtf8After 0 bytes

/-- A text in which every common line break is a line feed. -/
def plainBreaks : List Char → List Char
  | [] => []
  | '\r' :: '\n' :: rest => '\n' :: plainBreaks rest
  | char :: rest =>
      (if char = '\r' ∨ char.toNat = 0x85 then '\n' else char) ::
        plainBreaks rest

/-- The characters of a document. -/
def characters (bytes : List UInt8) : Except Fault (List Char) :=
  match decodeBytes bytes with
  | .ok text => .ok (plainBreaks text)
  | .error problem => .error (.encoding problem)

end Asm24.Yaml
