import Asm24.Assembly.Diagnostic
import Asm24.Assembly.Token
import Asm24.Text.Numeral

/-!
# Numeric literals

The value of a literal in one of the four bases, in signed 64-bit range.  A
literal outside that range is too small if it has a minus sign and too large
otherwise, and a literal that has no form or holds a digit that its base does
not have is unidentified.
-/

namespace Asm24.Assembly

open Asm24.Machine
open Asm24.Text (NumeralFault)

namespace Literal

/-- Whether a literal has a minus sign. -/
def isNegative : List Char → Bool
  | '-' :: _ => true
  | _ => false

/-- The value of a literal whose base is known. -/
def readIn (base : Base) (word : List Char) : Except NumeralFault Int :=
  match base, word with
  | .decimal, '-' :: digits => Text.readSigned 10 true digits
  | .decimal, digits => Text.readSigned 10 false digits
  | base, word => Text.readSigned base.radix false (word.drop 2)

/-- The value of a literal. -/
def read (word : List Char) : Except NumeralFault Int :=
  match Token.literalBase? word with
  | some base => readIn base word
  | none => .error .malformed

/-- The fault of a number that is out of range in the direction of its sign. -/
def rangeFault (quantity : Quantity) (negative : Bool) (text : String) :
    Fault :=
  if negative then .tooSmall quantity text else .tooLarge quantity text

/--
A number that an instruction can hold, or the fault that it is out of range.
-/
def checkRange (quantity : Quantity) (value : Int) : Except Fault Int :=
  if inImmediateRange value then
    .ok value
  else
    .error (rangeFault quantity (value ≤ 0) (toString value))

/-- The value of a literal, with the faults of an immediate operand. -/
def number (text : String) : Except Fault Int :=
  match read text.toList with
  | .ok value => .ok value
  | .error .overflow =>
      .error (rangeFault .immediate (isNegative text.toList) text)
  | .error .malformed => .error (.unidentifiedImmediate text)

end Literal

end Asm24.Assembly
