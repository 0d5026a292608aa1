import Asm24.Assembly.Literal

/-!
# Operands

An immediate operand is a number after a number sign, or a label.  A register
operand is a spelling of a register, with one comma at its end or none.
-/

namespace Asm24.Assembly

open Asm24.Machine

/-- The immediate operand that a word writes. -/
def readImmediate (word : String) : Except Fault Immediate :=
  if Token.isLabelImmediate word.toList then
    .ok (.ofLabel word)
  else if Token.isNumericImmediate word.toList then do
    let value ← Literal.number (String.ofList (Token.withoutHash word.toList))
    let value ← Literal.checkRange .immediate value
    return .ofValue value
  else
    .error (.unidentifiedImmediate word)

/-- The register operand that a word writes. -/
def readRegister (word : String) : Except Fault Register :=
  let name := Token.withoutComma word.toList
  if Token.isRegisterOperand name then
    match Register.ofAlias? (String.ofList name) with
    | some register => .ok register
    | none => .error (.unknownRegister (String.ofList name))
  else
    .error (.unknownOperand (String.ofList name))

end Asm24.Assembly
