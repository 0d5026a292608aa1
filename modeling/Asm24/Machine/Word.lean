import Asm24.Machine.Instruction
import Asm24.Machine.Memory
import Asm24.Text.Quoted

/-!
# Instruction words

An instruction word has twenty-four bits.  From the top these are five bits of
opcode, the bit of the immediate shape, the status and negation flags, twelve
bits of payload, and the destination register.  In the immediate shape the
payload is the number.  In the register shape it is four bits that must be zero
followed by the two operand registers.

Encoding and decoding are written in the arithmetic of natural numbers: a field
is shifted by a multiplication and read by a division and a remainder.
-/

namespace Asm24.Machine

/-- A memory word. -/
abbrev Word := UInt32

/-- Why an instruction has no word. -/
inductive EncodeError where
  | unknownOpcode (opcode : Nat)
  | invalidRegister (register : Register)
  | unlinkedLabel (label : String)
  | immediateRange (value : Int)
  deriving DecidableEq, Repr

/-- The description of an encoding error. -/
def EncodeError.message : EncodeError → String
  | .unknownOpcode opcode => "unknown opcode: " ++ toString opcode
  | .invalidRegister register =>
      "invalid operand: register " ++ toString register.index
  | .unlinkedLabel label =>
      "immediate references an unlinked label: " ++ Text.quote label
  | .immediateRange value => "immediate out of range: " ++ toString value

/-- Why a word is no instruction. -/
inductive DecodeError where
  | tooWide (word : Word)
  | unknownOpcode (opcode : Nat)
  | reservedBits (word : Word)
  deriving DecidableEq, Repr

/-- The description of a decoding error. -/
def DecodeError.message : DecodeError → String
  | .tooWide word => "word wider than 24 bits: 0x" ++ Text.hexUpper 1 word.toNat
  | .unknownOpcode opcode => "unknown opcode: 0x" ++ Text.hexUpper 2 opcode
  | .reservedBits word =>
      "reserved bits set in register-shape word: 0x" ++
        Text.hexUpper 6 word.toNat

namespace Instruction

/-- The number of a register slot in a word. -/
def slotBits (slot : Option Register) : Nat :=
  (slot.getD ⟨0⟩).index

/--
A register slot can be encoded if it is empty or names a register of the
machine.
-/
def checkRegister : Option Register → Except EncodeError Unit
  | none => .ok ()
  | some register =>
      if register.index < Register.count then
        .ok ()
      else
        .error (.invalidRegister register)

/-- A number slot can be encoded if it is empty, or linked and in range. -/
def checkImmediate (immediate : Immediate) : Except EncodeError Unit :=
  if immediate.unlinked then
    .error (.unlinkedLabel immediate.label)
  else if immediate.present && !inImmediateRange immediate.value then
    .error (.immediateRange immediate.value)
  else
    .ok ()

/-- The bits above the payload. -/
def headBits (instruction : Instruction) : Nat :=
  instruction.opcode * 0x80000 +
    (decide (instruction.shape = .immediate)).toNat * 0x40000 +
    instruction.status.toNat * 0x20000 + instruction.negate.toNat * 0x10000

/-- The payload and the destination register. -/
def operandBits (instruction : Instruction) : Nat :=
  match instruction.shape with
  | .immediate =>
      (if instruction.immediate.present then
        (instruction.immediate.value % 4096).toNat else 0) * 16
        + slotBits instruction.destination
  | .register =>
      slotBits instruction.first * 256 + slotBits instruction.second * 16 +
        slotBits instruction.destination

/--
The word of an instruction.  The operation is checked first, then the register
slots of both shapes in order, and then the number if the shape has one.
-/
def encode (instruction : Instruction) : Except EncodeError Word := do
  if instruction.mnemonic?.isNone then
    .error (.unknownOpcode instruction.opcode)
  checkRegister instruction.destination
  checkRegister instruction.first
  checkRegister instruction.second
  if instruction.shape = .immediate then
    checkImmediate instruction.immediate
  return UInt32.ofNat (instruction.headBits + instruction.operandBits)

/-- The instruction of a word, with every slot of its shape filled. -/
def decode (word : Word) : Except DecodeError Instruction :=
  let bits := word.toNat
  let instruction : Instruction :=
    { opcode := bits / 0x80000
      status := bits / 0x20000 % 2 == 1
      negate := bits / 0x10000 % 2 == 1
      destination := some ⟨bits % 16⟩ }
  if 0x1000000 ≤ bits then
    .error (.tooWide word)
  else if instruction.mnemonic?.isNone then
    .error (.unknownOpcode instruction.opcode)
  else if bits / 0x40000 % 2 = 1 then
    .ok
      { instruction with
        shape := .immediate
        immediate := .ofValue (bits / 16 % 4096 : Nat) }
  else if bits / 0x1000 % 16 ≠ 0 then
    .error (.reservedBits word)
  else
    .ok
      { instruction with
        shape := .register
        first := some ⟨bits / 256 % 16⟩
        second := some ⟨bits / 16 % 16⟩ }

end Instruction

end Asm24.Machine
