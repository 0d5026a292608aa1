import Asm24.Assembly.Line
import Asm24.Machine.Word

/-!
# Diagnostics

A fault is the cause for which a source is refused.  It has a kind, a message
and, for a label that was never declared, that label.  A failure is a fault at a
line of a named source, and a diagnostic is the record that a user sees, with
its rendering in one line of text.

Faults of immediate and register operands are operand faults as well, which
`Kind.covers` states.
-/

namespace Asm24.Assembly

open Asm24.Machine

/-- What a fault is about. -/
inductive Kind where
  | sections
  | labels
  | mnemonics
  | flags
  | operands
  | immediates
  | registers
  | allocations
  | linking
  /-- A kind that is known by its number only. -/
  | other (code : Int)
  deriving DecidableEq, Repr

namespace Kind

/-- The kinds that have a name, in the order of their numbers. -/
def named : List Kind :=
  [.sections, .labels, .mnemonics, .flags, .operands, .immediates, .registers,
    .allocations, .linking]

/-- The kind with a number; the first has the number one. -/
def ofCode (code : Int) : Kind :=
  if 1 ≤ code then named.getD (code.toNat - 1) (.other code) else .other code

/-- The name of a kind in messages. -/
def name : Kind → String
  | .sections => "section error"
  | .labels => "label error"
  | .mnemonics => "mnemonic error"
  | .flags => "flag error"
  | .operands => "operand error"
  | .immediates => "immediate operand error"
  | .registers => "register operand error"
  | .allocations => "allocation error"
  | .linking => "linking error"
  | .other code => "error kind " ++ toString code

/-- Whether every fault of the second kind counts as one of the first. -/
def covers (general special : Kind) : Bool :=
  general = special ||
    (general = .operands && (special = .immediates || special = .registers))

end Kind

/-- The record of an error that a user sees. -/
structure Diagnostic where
  kind : Kind
  message : String
  line : Int := 0
  text : String := ""
  source : String := ""
  label : String := ""
  deriving DecidableEq, Repr

/--
The diagnostic in one line; the position is left out unless the line number is
positive.
-/
def Diagnostic.render (diagnostic : Diagnostic) : String :=
  (if 0 < diagnostic.line then
    "line " ++ toString diagnostic.line ++ " of " ++ diagnostic.source ++ ": "
  else "") ++
  diagnostic.kind.name ++
  (if diagnostic.label = "" then
    "" else ": label " ++ Text.quote diagnostic.label) ++
  ": " ++ diagnostic.message ++
  (if diagnostic.text = "" then "" else " (" ++ diagnostic.text ++ ")")

/-- The place in which a number out of range was found. -/
inductive Quantity where
  | immediate
  | integer
  deriving DecidableEq, Repr

/-- The name of a quantity in messages. -/
def Quantity.name : Quantity → String
  | .immediate => "immediate"
  | .integer => "integer value"

/-- The cause for which a source is refused. -/
inductive Fault where
  | textOutsideSection
  | headerArity
  | unknownSection (name : String)
  | repeatedLabel (name : String)
  | unknownMnemonic (name : List UInt8)
  | unknownOpcode (opcode : Nat)
  | unsupportedSuffix (letter : Char) (mnemonic : Mnemonic)
  | repeatedSuffix (flag : Flag) (operator : String)
  | unsupportedFlag (flag : Flag) (mnemonic : Mnemonic)
  | emptyInstruction
  | tooManyOperands (mnemonic : Mnemonic)
  | operandCount (mnemonic : Mnemonic) (found expected : Nat)
  | unencodable (cause : EncodeError)
  | unidentifiedImmediate (text : String)
  | tooLarge (quantity : Quantity) (text : String)
  | tooSmall (quantity : Quantity) (text : String)
  | unknownOperand (text : String)
  | unknownRegister (name : String)
  | emptyAllocation
  | integerArity
  | arrayArity
  | unreadableSize (text : String)
  | nonPositiveSize (size : Int)
  | unreadableInteger (text : String)
  | stringAllocation
  | unknownAllocation (directive : String)
  | dataMemory
  | instructionMemory
  | undeclaredLabel (name : String)
  deriving DecidableEq, Repr

namespace Fault

/-- What a fault is about. -/
def kind : Fault → Kind
  | .textOutsideSection | .headerArity | .unknownSection _ => .sections
  | .repeatedLabel _ => .labels
  | .unknownMnemonic _ | .unknownOpcode _ => .mnemonics
  | .unsupportedSuffix _ _ | .repeatedSuffix _ _ | .unsupportedFlag _ _ =>
      .flags
  | .emptyInstruction
  | .tooManyOperands _ | .operandCount _ _ _ | .unencodable _ => .operands
  | .unidentifiedImmediate _ | .tooLarge .immediate _ | .tooSmall .immediate
      _ => .immediates
  | .unknownOperand _ | .unknownRegister _ => .registers
  | .emptyAllocation | .integerArity | .arrayArity
  | .unreadableSize _ | .nonPositiveSize _ | .unreadableInteger
      _ | .stringAllocation | .unknownAllocation _ | .dataMemory
  | .instructionMemory | .tooLarge .integer _ | .tooSmall .integer _ =>
      .allocations
  | .undeclaredLabel _ => .linking

/-- The description of a fault. -/
def message : Fault → String
  | .textOutsideSection => "text has no section"
  | .headerArity => "invalid number of arguments in section header"
  | .unknownSection name => "unknown section identifier " ++ Text.quote name
  | .repeatedLabel name =>
      "label " ++ Text.quote name ++ " defined in multiple locations"
  | .unknownMnemonic name => "unknown mnemonic " ++ Text.quoteBytes name
  | .unknownOpcode opcode => "unknown opcode 0x" ++ Text.hexUpper 2 opcode
  | .unsupportedSuffix letter mnemonic =>
      "unsupported flag " ++ Text.quote (String.ofList [letter]) ++
        " for mnemonic " ++
        Text.quote mnemonic.name
  | .repeatedSuffix flag operator =>
      "duplicate flag " ++ Text.quote (String.ofList [flag.letter]) ++
        " in operator " ++
        Text.quote operator
  | .unsupportedFlag flag mnemonic =>
      "flag " ++ Text.quote (String.ofList [flag.letter]) ++
        " is not supported for mnemonic " ++
        Text.quote mnemonic.name
  | .emptyInstruction => "empty instruction"
  | .tooManyOperands mnemonic =>
      "invalid number of operands for mnemonic " ++ Text.quote mnemonic.name
  | .operandCount mnemonic found expected =>
      "invalid number of operands for mnemonic " ++ Text.quote mnemonic.name ++
        ": got " ++
        toString found ++ ", want " ++ toString expected
  | .unencodable cause => cause.message
  | .unidentifiedImmediate text => "unidentified immediate " ++ Text.quote text
  | .tooLarge quantity text =>
      quantity.name ++ " " ++ text ++
        " is too large, must be less than or equal to " ++
        toString greatestImmediate
  | .tooSmall quantity text =>
      quantity.name ++ " " ++ text ++
        " is too small, must be greater than or equal to " ++
        toString leastImmediate
  | .unknownOperand text => "unknown operand " ++ Text.quote text
  | .unknownRegister name => "unknown register alias " ++ Text.quote name
  | .emptyAllocation => "empty allocation"
  | .integerArity => "invalid number of arguments for integer allocation"
  | .arrayArity => "invalid number of arguments for array allocation"
  | .unreadableSize text => "invalid array size " ++ Text.quote text
  | .nonPositiveSize size => "invalid array size " ++ toString size
  | .unreadableInteger text => "invalid integer value " ++ Text.quote text
  | .stringAllocation => "string allocation is not supported"
  | .unknownAllocation directive =>
      "invalid allocation type " ++ Text.quote directive
  | .dataMemory => "insufficient read-only data memory"
  | .instructionMemory => "insufficient instruction memory"
  | .undeclaredLabel _ => "label was never declared"

/-- The label that a fault is about, if it is one of linking. -/
def label : Fault → String
  | .undeclaredLabel name => name
  | _ => ""

/-- The diagnostic of a fault without a position. -/
def diagnostic (fault : Fault) : Diagnostic where
  kind := fault.kind
  message := fault.message
  label := fault.label

end Fault

/-- A fault at a line of a source. -/
structure Failure where
  fault : Fault
  line : Line
  source : String
  deriving DecidableEq, Repr

/-- The diagnostic of a failure. -/
def Failure.diagnostic (failure : Failure) : Diagnostic where
  kind := failure.fault.kind
  message := failure.fault.message
  line := failure.line.number
  text := failure.line.text
  source := failure.source
  label := failure.fault.label

/-- Attach a position to the fault of a result. -/
def locate {result : Type} (source : String) (line : Line) :
    Except Fault result → Except Failure result
  | .ok value => .ok value
  | .error fault => .error ⟨fault, line, source⟩

@[simp]
theorem locate_ok {result : Type} (source : String) (line : Line)
    (value : result) :
    locate source line (.ok value) = .ok value :=
  rfl

@[simp]
theorem locate_error {result : Type} (source : String) (line : Line)
    (fault : Fault) :
    locate source line (.error fault : Except Fault result) =
      .error ⟨fault, line, source⟩ :=
  rfl

end Asm24.Assembly
