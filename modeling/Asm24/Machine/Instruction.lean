import Asm24.Machine.Mnemonic
import Asm24.Machine.Register

/-!
# Instructions

An instruction is an opcode, a shape, two flags and the operand slots of both
shapes.  Slots may be empty.  The number slot holds a value, or a label until
linking replaces it by an address.

`Instruction.materialized` fills the empty slots of the shape with zero and
clears those of the other shape.  It is the instruction that the machine word
stands for.
-/

namespace Asm24.Machine

/--
The number slot of an instruction: empty, a value, or a label that is still to
be linked.
-/
structure Immediate where
  value : Int := 0
  label : String := ""
  present : Bool := false
  deriving DecidableEq, Repr

namespace Immediate

/-- The empty slot. -/
def absent : Immediate := {}

/-- A slot that holds a value. -/
def ofValue (value : Int) : Immediate := { value, present := true }

/-- A slot that refers to a label. -/
def ofLabel (label : String) : Immediate := { label, present := true }

/-- Whether the slot still refers to a label. -/
def unlinked (immediate : Immediate) : Bool :=
  immediate.present && immediate.label != ""

end Immediate

/-- An instruction with the operand slots of both shapes. -/
structure Instruction where
  opcode : Nat
  shape : Shape := .register
  status : Bool := false
  negate : Bool := false
  destination : Option Register := none
  first : Option Register := none
  second : Option Register := none
  immediate : Immediate := {}
  deriving DecidableEq, Repr

namespace Instruction

/-- The operation, if the opcode has one. -/
def mnemonic? (instruction : Instruction) : Option Mnemonic :=
  Mnemonic.ofOpcode? instruction.opcode

/-- The name of the operation, or three question marks. -/
def operationName (instruction : Instruction) : String :=
  match instruction.mnemonic? with
  | some mnemonic => mnemonic.name
  | none => "???"

/--
How many operands the operation has, which is none if the opcode has no
operation.
-/
def operands (instruction : Instruction) : Grammar :=
  match instruction.mnemonic? with
  | some mnemonic => mnemonic.operands
  | none => ⟨0, 0⟩

/-- The flags that are set. -/
def flags (instruction : Instruction) : FlagSet where
  negate := instruction.negate
  status := instruction.status

/-- The number of slots of the shape that are filled. -/
def operandCount (instruction : Instruction) : Nat :=
  match instruction.shape with
  | .immediate =>
      instruction.destination.isSome.toNat + instruction.immediate.present.toNat
  | .register =>
      instruction.destination.isSome.toNat + instruction.first.isSome.toNat +
        instruction.second.isSome.toNat

/--
The immediate slot as the machine sees it: zero if empty, twelve bits if it is a
value.
-/
def materializedImmediate (immediate : Immediate) : Immediate :=
  if !immediate.present then
    .ofValue 0
  else if immediate.label == "" then
    { immediate with value := immediate.value % 4096 }
  else
    immediate

/-- The register slot as the machine sees it: register zero if empty. -/
def materializedRegister (slot : Option Register) : Option Register :=
  some (slot.getD ⟨0⟩)

/--
The instruction with each slot of its shape filled and each slot of the other
shape empty.
-/
def materialized (instruction : Instruction) : Instruction :=
  match instruction.shape with
  | .immediate =>
      { instruction with
        destination := materializedRegister instruction.destination
        first := none
        second := none
        immediate := materializedImmediate instruction.immediate }
  | .register =>
      { instruction with
        destination := materializedRegister instruction.destination
        first := materializedRegister instruction.first
        second := materializedRegister instruction.second
        immediate := .absent }

end Instruction

end Asm24.Machine
