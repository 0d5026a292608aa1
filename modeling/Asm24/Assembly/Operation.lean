import Asm24.Assembly.Operand

/-!
# Instruction lines

The first word of an instruction line is the operator: the three letters of an
operation and then the letters of its flags, each at most once and in any order.
The other words are the operands.  The last word decides the shape: if it is a
number or a label, and not the name of an operation, the instruction has the
immediate shape.

Reading fills the slots that the line writes.  `validate` then holds the
instruction to the number of operands and the flags of its operation.
-/

namespace Asm24.Assembly

open Asm24.Machine

/-- Add the flags that the letters write to those already read. -/
def readFlags (operator : String) (mnemonic : Mnemonic) :
    FlagSet → List Char → Except Fault FlagSet
  | flags, [] => .ok flags
  | flags, char :: rest =>
      match Flag.ofLetter? char with
      | none => .error (.unsupportedSuffix (Text.leadByte char) mnemonic)
      | some flag =>
          if !mnemonic.supports flag then
            .error (.unsupportedSuffix (Text.leadByte char) mnemonic)
          else if flags.has flag then
            .error (.repeatedSuffix flag operator)
          else
            readFlags operator mnemonic (flags.insert flag) rest

/-- The operation and the flags that an operator writes. -/
def readOperator (operator : String) : Except Fault (Mnemonic × FlagSet) :=
  match Mnemonic.ofName? (String.ofList (operator.toList.take 3)) with
  | none => .error (.unknownMnemonic ((Text.encode operator.toList).take 3))
  | some mnemonic => do
      let flags ← readFlags operator mnemonic .none (operator.toList.drop 3)
      return (mnemonic, flags)

/--
Whether the last word of an instruction line makes it an immediate instruction.
-/
def isImmediateLine (tokens : List String) : Bool :=
  match tokens.getLast? with
  | none => false
  | some last => Token.isImmediate last.toList && !Token.isMnemonic last.toList

/-- Fill the slots of an instruction of immediate shape from its operands. -/
def readImmediateOperands (mnemonic : Mnemonic) (instruction : Instruction) :
    List String → Except Fault Instruction
  | [] => .ok instruction
  | [last] => do
      let immediate ← readImmediate last
      return { instruction with immediate }
  | [register, last] => do
      let destination ← readRegister register
      let immediate ← readImmediate last
      return { instruction with destination := some destination, immediate }
  | _ => .error (.tooManyOperands mnemonic)

/-- Fill the slots of an instruction of register shape from its operands. -/
def readRegisterOperands (mnemonic : Mnemonic) (instruction : Instruction) :
    List String → Except Fault Instruction
  | [] => .ok instruction
  | [word] => do
      let destination ← readRegister word
      return { instruction with destination := some destination }
  | [word, firstWord] => do
      let destination ← readRegister word
      let first ← readRegister firstWord
      return { instruction with
        destination := some destination, first := some first }
  | [word, firstWord, secondWord] => do
      let destination ← readRegister word
      let first ← readRegister firstWord
      let second ← readRegister secondWord
      return { instruction with
        destination := some destination
        first := some first
        second := some second }
  | _ => .error (.tooManyOperands mnemonic)

/--
The instruction that the words of a line write, with labels still to be linked.
-/
def readInstruction (tokens : List String) : Except Fault Instruction :=
  match tokens with
  | [] => .error .emptyInstruction
  | operator :: operands => do
      let (mnemonic, flags) ← readOperator operator
      let instruction : Instruction :=
        { opcode := mnemonic.opcode, status := flags.status, negate :=
          flags.negate }
      if isImmediateLine tokens then
        readImmediateOperands mnemonic { instruction with
          shape := .immediate } operands
      else
        readRegisterOperands mnemonic instruction operands

/-- Check one flag of an instruction. -/
def validateFlag (mnemonic : Mnemonic) (flags : FlagSet) (flag : Flag) :
    Except Fault Unit :=
  if flags.has flag && !mnemonic.supports flag then
    .error (.unsupportedFlag flag mnemonic)
  else
    .ok ()

/--
Hold an instruction to its operation: the operands must be as many as the shape
has, and the operation must take the flags.
-/
def validate (instruction : Instruction) : Except Fault Unit :=
  match instruction.mnemonic? with
  | none => .error (.unknownOpcode instruction.opcode)
  | some mnemonic => do
      let expected := mnemonic.operands.count instruction.shape
      if instruction.operandCount ≠ expected then
        .error (.operandCount mnemonic instruction.operandCount expected)
      validateFlag mnemonic instruction.flags .status
      validateFlag mnemonic instruction.flags .negate

end Asm24.Assembly
