/-!
# Text in bytes

UTF-8 in both directions.  A byte string is read as a sequence of pieces: a
character wherever its shortest encoding starts, and a stray byte everywhere
else.  Overlong encodings, surrogates and values beyond the last code point have
no character, so each of their bytes is stray.
-/

namespace Asm24.Text

/-- One step of reading bytes as text. -/
inductive Piece where
  | char (value : Char)
  | stray (byte : UInt8)
  deriving DecidableEq, Repr

/-- The bytes of a text. -/
def encode (text : List Char) : List UInt8 :=
  text.flatMap String.utf8EncodeChar

/-- The character whose code is the first byte of a character. -/
def leadByte (char : Char) : Char :=
  match String.utf8EncodeChar char with
  | byte :: _ => Char.ofNat byte.toNat
  | [] => char

/-- The six payload bits of a continuation byte. -/
def continuation? (byte : UInt8) : Option Nat :=
  if 0x80 ≤ byte.toNat ∧ byte.toNat < 0xC0 then
    some (byte.toNat - 0x80)
  else
    none

/--
The character of a code point, if there is one and it is not below `least`.
-/
def scalar? (least code : Nat) : Option Char :=
  if least ≤ code ∧ code.isValidChar then some (Char.ofNat code) else none

/--
The character that `first` and its continuation bytes encode, and how many of
those it takes.
-/
def leadingChar? (first : UInt8) (rest : List UInt8) : Option (Char × Nat) :=
  let lead := first.toNat
  if lead < 0x80 then
    some (Char.ofNat lead, 0)
  else if lead < 0xC0 then
    none
  else if lead < 0xE0 then
    match rest with
    | second :: _ => do
        let low ← continuation? second
        let char ← scalar? 0x80 ((lead - 0xC0) * 64 + low)
        return (char, 1)
    | _ => none
  else if lead < 0xF0 then
    match rest with
    | second :: third :: _ => do
        let middle ← continuation? second
        let low ← continuation? third
        let char ← scalar? 0x800 (((lead - 0xE0) * 64 + middle) * 64 + low)
        return (char, 2)
    | _ => none
  else if lead < 0xF8 then
    match rest with
    | second :: third :: fourth :: _ => do
        let high ← continuation? second
        let middle ← continuation? third
        let low ← continuation? fourth
        let char ← scalar? 0x10000
            ((((lead - 0xF0) * 64 + high) * 64 + middle) * 64 + low)
        return (char, 3)
    | _ => none
  else
    none

/-- The pieces of a byte string after its first `skipped` bytes. -/
def piecesAfter : (skipped : Nat) → List UInt8 → List Piece
  | _, [] => []
  | skipped + 1, _ :: rest => piecesAfter skipped rest
  | 0, first :: rest =>
      match leadingChar? first rest with
      | some (char, taken) => .char char :: piecesAfter taken rest
      | none => .stray first :: piecesAfter 0 rest

/-- The pieces of a byte string. -/
def pieces (bytes : List UInt8) : List Piece :=
  piecesAfter 0 bytes

/--
The character that stands for a piece: a stray byte becomes the replacement
character.
-/
def Piece.shown : Piece → Char
  | .char value => value
  | .stray _ => Char.ofNat 0xFFFD

/--
The text of a byte string, with the replacement character for every stray byte.
-/
def decode (bytes : List UInt8) : List Char :=
  (pieces bytes).map Piece.shown

end Asm24.Text
