import Asm24.Text.Numeral
import Asm24.Text.Printable
import Asm24.Text.Utf8

/-!
# Quoted text

Text is quoted between double quotes.  A quote and a backslash get a backslash
in front, the controls with a letter of their own are written by it, and a
printable character stands for itself.  Every other character is written by its
code: two digits for the remaining ASCII controls, four digits up to the end of
the basic plane and eight beyond.  A stray byte is written by two digits as
well.
-/

namespace Asm24.Text

/-- The letter that names a control character after a backslash. -/
def controlLetter? (char : Char) : Option Char :=
  match char.toNat with
  | 0x07 => some 'a'
  | 0x08 => some 'b'
  | 0x09 => some 't'
  | 0x0A => some 'n'
  | 0x0B => some 'v'
  | 0x0C => some 'f'
  | 0x0D => some 'r'
  | _ => none

/-- A character as it stands between two quotation marks of the kind `mark`. -/
def quotedChar (mark char : Char) : String :=
  if char = mark ∨ char = '\\' then
    String.ofList ['\\', char]
  else if isPrintable char then
    String.ofList [char]
  else
    match controlLetter? char with
    | some letter => String.ofList ['\\', letter]
    | none =>
        if char.toNat < 0x20 ∨ char.toNat = 0x7F then
          "\\x" ++ hexLower 2 char.toNat
        else if char.toNat < 0x10000 then
          "\\u" ++ hexLower 4 char.toNat
        else
          "\\U" ++ hexLower 8 char.toNat

/-- A piece of a byte string as it stands between double quotes. -/
def quotedPiece : Piece → String
  | .char value => quotedChar '"' value
  | .stray byte => "\\x" ++ hexLower 2 byte.toNat

/-- A text between double quotes. -/
def quote (text : String) : String :=
  "\"" ++ String.join (text.toList.map (quotedChar '"')) ++ "\""

/-- A byte string, read as text, between double quotes. -/
def quoteBytes (bytes : List UInt8) : String :=
  "\"" ++ String.join ((pieces bytes).map quotedPiece) ++ "\""

/-- The mark that stands around a quoted character. -/
def singleQuote : Char :=
  Char.ofNat 0x27

/-- A character between single quotes. -/
def quoteChar (char : Char) : String :=
  "'" ++ quotedChar singleQuote char ++ "'"

end Asm24.Text
