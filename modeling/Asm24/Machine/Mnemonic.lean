/-!
# Mnemonics and flags

The machine has twenty-nine operations.  An operation is named by three letters,
numbered by its opcode, and says which suffix flags it takes and how many
operands it has in each of the two instruction shapes.

The flags are negation, written `N`, and the update of the status register,
written `S`.
-/

namespace Asm24.Machine

/-- A one-letter suffix of an operation. -/
inductive Flag where
  | negate
  | status
  deriving DecidableEq, Repr

namespace Flag

/-- The letter that writes a flag. -/
def letter : Flag → Char
  | .negate => 'N'
  | .status => 'S'

/-- The flag that a letter writes. -/
def ofLetter? (char : Char) : Option Flag :=
  if char = 'N' then some .negate
  else if char = 'S' then some .status
  else none

theorem ofLetter?_eq_some_iff {char : Char} {flag : Flag} :
    ofLetter? char = some flag ↔ char = flag.letter := by
  cases flag <;> simp only [ofLetter?, letter] <;> split <;> simp_all

end Flag

/-- A set of flags. -/
structure FlagSet where
  negate : Bool := false
  status : Bool := false
  deriving DecidableEq, Repr

namespace FlagSet

/-- No flag at all. -/
def none : FlagSet := {}

/-- Both flags. -/
def both : FlagSet := { negate := true, status := true }

/--
The set whose members are given by the two lowest bits of a number, negation
first.
-/
def ofBits (bits : Nat) : FlagSet where
  negate := bits.testBit 0
  status := bits.testBit 1

/-- Whether a flag is in the set. -/
def has (flags : FlagSet) : Flag → Bool
  | .negate => flags.negate
  | .status => flags.status

/-- The set with one more flag. -/
def insert (flags : FlagSet) : Flag → FlagSet
  | .negate => { flags with negate := true }
  | .status => { flags with status := true }

/-- The letters of the flags in the set, negation first. -/
def letters (flags : FlagSet) : List Char :=
  (if flags.negate then ['N'] else []) ++ (if flags.status then ['S'] else [])

/-- The suffix that writes the set. -/
def render (flags : FlagSet) : String :=
  String.ofList flags.letters

@[simp]
theorem has_insert (flags : FlagSet) (flag other : Flag) :
    (flags.insert flag).has other =
      (flags.has other || decide (flag = other)) := by
  cases flag <;> cases other <;> simp [insert, has]

end FlagSet

/--
The two shapes of an instruction: all operands are registers, or the last is a
number.
-/
inductive Shape where
  | register
  | immediate
  deriving DecidableEq, Repr

/-- How many operands an operation has in each shape. -/
structure Grammar where
  register : Nat
  immediate : Nat
  deriving DecidableEq, Repr

/-- The number of operands in one shape. -/
def Grammar.count (grammar : Grammar) : Shape → Nat
  | .register => grammar.register
  | .immediate => grammar.immediate

/-- The operations of the machine, in the order of their opcodes. -/
inductive Mnemonic where
  | don | mov | add | sub | mul | div | and | orr | xor | lga | lgo | lgx | lsl
  | lsr | asr | cpa | cps | bch | bal | beq | bne | bgt | blt | bge | ble | ldr
  | str | psh | pop
  deriving DecidableEq, Repr

namespace Mnemonic

/-- Every operation, in the order of the opcodes. -/
def all : List Mnemonic :=
  [.don, .mov, .add, .sub, .mul, .div, .and, .orr, .xor, .lga, .lgo, .lgx, .lsl,
    .lsr, .asr, .cpa, .cps, .bch, .bal, .beq, .bne, .bgt, .blt, .bge, .ble,
    .ldr, .str, .psh, .pop]

/-- The three letters that name an operation. -/
def name : Mnemonic → String
  | .don => "DON" | .mov => "MOV" | .add => "ADD" | .sub =>
      "SUB" | .mul => "MUL"
  | .div => "DIV" | .and => "AND" | .orr => "ORR" | .xor =>
      "XOR" | .lga => "LGA"
  | .lgo => "LGO" | .lgx => "LGX" | .lsl => "LSL" | .lsr =>
      "LSR" | .asr => "ASR"
  | .cpa => "CPA" | .cps => "CPS" | .bch => "BCH" | .bal =>
      "BAL" | .beq => "BEQ"
  | .bne => "BNE" | .bgt => "BGT" | .blt => "BLT" | .bge =>
      "BGE" | .ble => "BLE"
  | .ldr => "LDR" | .str => "STR" | .psh => "PSH" | .pop => "POP"

/-- The number that encodes an operation. -/
def opcode : Mnemonic → Nat
  | .don => 0 | .mov => 1 | .add => 2 | .sub => 3 | .mul => 4
  | .div => 5 | .and => 6 | .orr => 7 | .xor => 8 | .lga => 9
  | .lgo => 10 | .lgx => 11 | .lsl => 12 | .lsr => 13 | .asr => 14
  | .cpa => 15 | .cps => 16 | .bch => 17 | .bal => 18 | .beq => 19
  | .bne => 20 | .bgt => 21 | .blt => 22 | .bge => 23 | .ble => 24
  | .ldr => 25 | .str => 26 | .psh => 27 | .pop => 28

/--
The flags that an operation takes: arithmetic and moves take both, the rest
none.
-/
def flags : Mnemonic → FlagSet
  | .mov | .add | .sub | .mul | .div | .and | .orr | .xor | .lga | .lgo | .lgx
  | .lsl | .lsr | .asr => .both
  | _ => .none

/-- How many operands an operation has. -/
def operands : Mnemonic → Grammar
  | .don => ⟨0, 0⟩
  | .mov | .cpa | .cps | .ldr | .str => ⟨2, 2⟩
  | .bch | .bal | .beq | .bne | .bgt | .blt | .bge | .ble | .psh
  | .pop => ⟨1, 1⟩
  | _ => ⟨3, 2⟩

/-- Whether an operation takes a flag. -/
def supports (mnemonic : Mnemonic) (flag : Flag) : Bool :=
  mnemonic.flags.has flag

/-- The operation with an opcode. -/
def ofOpcode? (opcode : Nat) : Option Mnemonic :=
  all[opcode]?

/-- The operation with a name. -/
def ofName? (name : String) : Option Mnemonic :=
  all.find? (fun mnemonic => mnemonic.name == name)

theorem opcode_lt (mnemonic : Mnemonic) : mnemonic.opcode < 29 := by
  cases mnemonic <;> decide

@[simp]
theorem ofOpcode?_opcode (mnemonic : Mnemonic) :
    ofOpcode? mnemonic.opcode = some mnemonic := by
  cases mnemonic <;> rfl

end Mnemonic

end Asm24.Machine
