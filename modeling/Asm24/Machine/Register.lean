/-!
# Registers

The machine has sixteen registers.  Twelve are known by their number alone, and
the last four by the names of their roles.  Every register is also known by its
number, and the first ten also by their number in two digits.

An operand slot may hold any number, so that a slot can be shown and checked
before it is known to name a register of the machine.
-/

namespace Asm24.Machine

/-- The number in an operand slot for a register. -/
structure Register where
  index : Nat
  deriving DecidableEq, Repr

namespace Register

/-- The number of registers that the machine has. -/
def count : Nat := 16

/-- The name of a register in listings. -/
def name (register : Register) : String :=
  match register.index with
  | 0 => "R0" | 1 => "R1" | 2 => "R2" | 3 => "R3" | 4 => "R4" | 5 => "R5"
  | 6 => "R6" | 7 => "R7" | 8 => "R8" | 9 => "R9" | 10 => "R10" | 11 => "R11"
  | 12 => "SP" | 13 => "LR" | 14 => "PC" | 15 => "CPSR"
  | other => "R?" ++ toString other

/-- Every accepted spelling of a register. -/
def aliases : List (String × Register) :=
  [("R0", ⟨0⟩), ("R1", ⟨1⟩), ("R2", ⟨2⟩), ("R3", ⟨3⟩), ("R4", ⟨4⟩), ("R5", ⟨5⟩),
    ("R6", ⟨6⟩), ("R7", ⟨7⟩), ("R8", ⟨8⟩), ("R9", ⟨9⟩), ("R10", ⟨10⟩),
    ("R11", ⟨11⟩), ("R12", ⟨12⟩), ("R13", ⟨13⟩), ("R14", ⟨14⟩), ("R15", ⟨15⟩),
    ("R00", ⟨0⟩), ("R01", ⟨1⟩), ("R02", ⟨2⟩), ("R03", ⟨3⟩), ("R04", ⟨4⟩),
    ("R05", ⟨5⟩), ("R06", ⟨6⟩), ("R07", ⟨7⟩), ("R08", ⟨8⟩), ("R09", ⟨9⟩),
    ("SP", ⟨12⟩), ("LR", ⟨13⟩), ("PC", ⟨14⟩), ("CPSR", ⟨15⟩)]

/-- The register that a spelling names. -/
def ofAlias? (spelling : String) : Option Register :=
  aliases.lookup spelling

/-- The name of an operand slot, which is a dash when it is empty. -/
def slotName : Option Register → String
  | some register => register.name
  | none => "-"

/-- A listed name of a register of the machine is one of its spellings. -/
theorem ofAlias?_name (index : Fin 16) :
    ofAlias? (Register.name ⟨index⟩) = some ⟨index⟩ := by
  revert index
  decide

end Register

end Asm24.Machine
