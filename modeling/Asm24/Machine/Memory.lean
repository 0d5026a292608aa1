/-!
# Memory

Memory is addressed by words, and its regions follow one another from address
zero.  Addresses are 32-bit numbers, so the end of a region is taken in that
range and wraps around.

The range of numbers that an instruction can hold directly is fixed here as
well: twelve bits, read as signed or unsigned.
-/

namespace Asm24.Machine

/-- The address of a memory word. -/
abbrev Address := UInt32

/-- A named run of memory words. -/
structure Region where
  name : String
  base : Address
  size : UInt32
  deriving DecidableEq, Repr

namespace Region

/-- The first address after the region. -/
def finish (region : Region) : Address :=
  region.base + region.size

/-- Whether an address lies in the region. -/
def contains (region : Region) (address : Address) : Bool :=
  region.base ≤ address && address < region.finish

/-- The registers as memory. -/
def registerFile : Region := ⟨"register file", 0x000, 0x010⟩

/-- The stack. -/
def stack : Region := ⟨"stack", 0x010, 0x1EF⟩

/-- Data that a program changes. -/
def readWrite : Region := ⟨"read-write data", 0x200, 0x1FF⟩

/-- Data that a program only reads. -/
def readOnly : Region := ⟨"read-only data", 0x400, 0x1FF⟩

/-- The instructions of a program. -/
def instruction : Region := ⟨"instruction", 0x600, 0x9FF⟩

/-- Every region, in the order of the addresses. -/
def all : List Region :=
  [registerFile, stack, readWrite, readOnly, instruction]

end Region

/-- The least number that an instruction can hold. -/
def leastImmediate : Int := -2048

/-- The greatest number that an instruction can hold. -/
def greatestImmediate : Int := 4095

/-- Whether an instruction can hold a number. -/
def inImmediateRange (value : Int) : Bool :=
  leastImmediate ≤ value && value ≤ greatestImmediate

end Asm24.Machine
