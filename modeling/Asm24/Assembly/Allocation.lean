import Asm24.Assembly.Literal

/-!
# Allocations

An allocation reserves words of read-only data that all hold one value.  A
directive line writes it: one integer, or an array of a size with its value or
zero.
-/

namespace Asm24.Assembly

open Asm24.Machine

/--
Words of read-only data that hold one value, from an offset into the region.
-/
structure Allocation where
  offset : UInt32
  size : UInt32 := 0
  value : Int := 0
  line : Int := 0
  deriving DecidableEq, Repr

namespace Allocation

/-- The address of the first word. -/
def address (allocation : Allocation) : Address :=
  Region.readOnly.base + allocation.offset

/--
The value that a word of a directive writes, with a number sign or without.
-/
def readValue (word : String) : Except Fault Int :=
  let literal := Token.withoutHash word.toList
  match Literal.read literal with
  | .ok value => Literal.checkRange .integer value
  | .error .overflow =>
      .error (Literal.rangeFault .integer (Literal.isNegative literal)
        (String.ofList literal))
  | .error .malformed => .error (.unreadableInteger word)

/--
The size that a word of a directive writes, with a number sign or without.
-/
def readSize (word : String) : Except Fault UInt32 :=
  match Literal.read (Token.withoutHash word.toList) with
  | .error _ => .error (.unreadableSize word)
  | .ok size =>
      if size < 1 then
        .error (.nonPositiveSize size)
      else if Region.readOnly.size.toNat < size then
        .error .dataMemory
      else
        .ok (UInt32.ofNat size.toNat)

/-- The allocation that the words of a directive line write. -/
def read (tokens : List String) (offset : UInt32) : Except Fault Allocation :=
  match tokens with
  | [] => .error .emptyAllocation
  | ".INT" :: arguments =>
      match arguments with
      | [word] => do
          let value ← readValue word
          return { offset, size := 1, value }
      | _ => .error .integerArity
  | ".ARR" :: arguments =>
      match arguments with
      | [sizeWord] => do
          let size ← readSize sizeWord
          return { offset, size }
      | [sizeWord, valueWord] => do
          let size ← readSize sizeWord
          let value ← readValue valueWord
          return { offset, size, value }
      | _ => .error .arrayArity
  | ".STR" :: _ => .error .stringAllocation
  | directive :: _ => .error (.unknownAllocation directive)

end Allocation

end Asm24.Assembly
