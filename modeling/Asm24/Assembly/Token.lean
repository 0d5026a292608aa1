import Asm24.Assembly.Line
import Asm24.Machine.Mnemonic

/-!
# Lexical classes

A line is a comment, blank, the declaration of a label, or text to be read word
by word.  A word may have the form of a register, a label or a numeric literal.
The classes are the languages of these forms: letters and digits are those of
ASCII, and a form always covers the whole word.

A literal is written in one of four bases.  The octal form admits the digit
eight, which no octal number has, so such a literal is recognized here and
refused when its value is read.
-/

namespace Asm24.Assembly

open Asm24.Machine

/-- The bases of numeric literals. -/
inductive Base where
  | binary
  | octal
  | decimal
  | hexadecimal
  deriving DecidableEq, Repr

/-- The number of digits that a base has. -/
def Base.radix : Base → Nat
  | .binary => 2
  | .octal => 8
  | .decimal => 10
  | .hexadecimal => 16

namespace Token

/-- Whether a character may follow the first letter of a label. -/
def isLabelChar (char : Char) : Bool :=
  char.isAlphanum || char == '_' || char == '-'

/-- Whether a character is a hexadecimal digit. -/
def isHexDigit (char : Char) : Bool :=
  char.isDigit || ('a' ≤ char && char ≤ 'f') || ('A' ≤ char && char ≤ 'F')

/-- Whether a word is not empty and holds only characters of a class. -/
def isRun (holds : Char → Bool) (word : List Char) : Bool :=
  !word.isEmpty && word.all holds

/-- A letter followed by letters, digits, underscores and hyphens. -/
def isLabelName : List Char → Bool
  | [] => false
  | char :: rest => char.isAlpha && rest.all isLabelChar

/-- The word without one comma at its end. -/
def withoutComma (word : List Char) : List Char :=
  if word.getLast? = some ',' then word.dropLast else word

/-- The word without one number sign at its start. -/
def withoutHash : List Char → List Char
  | '#' :: rest => rest
  | word => word

/-- The letter `R` and a number, or the name of a special register. -/
def isRegisterName (word : List Char) : Bool :=
  match word with
  | 'R' :: digits => isRun Char.isDigit digits
  | _ => word == ['S', 'P'] || word == ['L', 'R'] || word == ['P', 'C'] ||
      word == ['C', 'P', 'S', 'R']

/-- A word in the form of a register, with one comma at its end or none. -/
def isRegisterOperand (word : List Char) : Bool :=
  isRegisterName (withoutComma word)

/-- A zero and the letter `b`, then binary digits. -/
def isBinary : List Char → Bool
  | '0' :: mark :: digits =>
      (mark == 'b' || mark == 'B') &&
        isRun (fun char => char == '0' || char == '1') digits
  | _ => false

/-- A zero and the letter `c`, then digits up to eight. -/
def isOctal : List Char → Bool
  | '0' :: mark :: digits =>
      (mark == 'c' || mark == 'C') &&
        isRun (fun char => '0' ≤ char && char ≤ '8') digits
  | _ => false

/-- Decimal digits, with a minus sign or without. -/
def isDecimal : List Char → Bool
  | '-' :: digits => isRun Char.isDigit digits
  | digits => isRun Char.isDigit digits

/-- A zero and the letter `x`, then hexadecimal digits. -/
def isHexadecimal : List Char → Bool
  | '0' :: mark :: digits =>
      (mark == 'x' || mark == 'X') && isRun isHexDigit digits
  | _ => false

/-- The base of a numeric literal. -/
def literalBase? (word : List Char) : Option Base :=
  if isBinary word then some .binary
  else if isOctal word then some .octal
  else if isDecimal word then some .decimal
  else if isHexadecimal word then some .hexadecimal
  else none

/-- A number sign and a numeric literal. -/
def isNumericImmediate : List Char → Bool
  | '#' :: literal => (literalBase? literal).isSome
  | _ => false

/--
A label that stands for its address: it must not have the form of a register.
-/
def isLabelImmediate (word : List Char) : Bool :=
  isLabelName word && !isRegisterOperand word

/-- A number or a label in the place of a number. -/
def isImmediate (word : List Char) : Bool :=
  isLabelImmediate word || isNumericImmediate word

/--
A label or a number in the place of an operand, where the number has no form of
a register.
-/
def isImmediateOperand (word : List Char) : Bool :=
  isLabelImmediate word || isNumericImmediate word && !isRegisterOperand word

/-- The name of an operation. -/
def isMnemonic (word : List Char) : Bool :=
  (Mnemonic.ofName? (String.ofList word)).isSome

/-- A line that starts with a number sign or two slashes. -/
def isComment : List Char → Bool
  | '#' :: _ => true
  | '/' :: '/' :: _ => true
  | _ => false

/-- A line of white space. -/
def isBlankLine (text : List Char) : Bool :=
  text.all Text.isBlank

/-- A label followed by a colon. -/
def isLabelLine (text : List Char) : Bool :=
  text.getLast? == some ':' && isLabelName text.dropLast

end Token

/-- What a line holds. -/
inductive Content where
  /-- The declaration of a label. -/
  | label (name : String)
  /-- White space or a comment. -/
  | inert
  /-- Words to be read. -/
  | code (tokens : List String)
  deriving DecidableEq, Repr

/-- What a line holds. -/
def Line.content (line : Line) : Content :=
  let text := line.text.toList
  if Token.isLabelLine text then
    .label (String.ofList text.dropLast)
  else if Token.isBlankLine text || Token.isComment text then
    .inert
  else
    .code line.tokens

end Asm24.Assembly
