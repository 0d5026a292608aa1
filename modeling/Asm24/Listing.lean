import Asm24.Files.Buffer
import Asm24.Machine.Word

/-!
# Listings

The text of an instruction shows the operation, its flags and the operand slots
that the operation has in the shape at hand.  Numbers are shown as twelve
unsigned bits in hexadecimal, and a label that is still to be linked is shown by
its name.

A listing has one instruction per line.  A dump adds the address and the word to
each line, under a heading.  Both are made only if every word is an instruction,
and are then written line by line.
-/

namespace Asm24.Machine

open Asm24.Files (Production)

namespace Immediate

/-- The text of a number slot that is filled. -/
def render (immediate : Immediate) : String :=
  if immediate.unlinked then
    immediate.label
  else
    "#0x" ++ Text.hexUpper 1 (immediate.value % 4096).toNat

end Immediate

namespace Instruction

/--
The texts of the filled slots that the operation has in the shape at hand.
-/
def operandTexts (instruction : Instruction) : List String :=
  let count := instruction.operands.count instruction.shape
  match instruction.shape with
  | .immediate =>
      (if 1 < count then instruction.destination.toList.map Register.name
        else []) ++
        (if 0 < count && instruction.immediate.present then
          [instruction.immediate.render]
        else [])
  | .register =>
      (([instruction.destination, instruction.first, instruction.second].take
        count).flatMap Option.toList).map Register.name

/-- The text of an instruction. -/
def render (instruction : Instruction) : String :=
  let operator := instruction.operationName ++ instruction.flags.render
  match instruction.operandTexts with
  | [] => operator
  | texts => operator ++ " " ++ ", ".intercalate texts

end Instruction

/-- The text of a word. -/
def disassemble (word : Word) : Except DecodeError String := do
  let instruction ← Instruction.decode word
  return instruction.render

/-- A word of a list that is no instruction. -/
structure ListingError where
  index : Nat
  cause : DecodeError
  deriving DecidableEq, Repr

/-- The description of a listing error. -/
def ListingError.message (error : ListingError) : String :=
  "word " ++ toString error.index ++ ": " ++ error.cause.message

/-- The texts of words that are numbered from `index`. -/
def disassembleFrom :
    (index : Nat) → List Word → Except ListingError (List String)
  | _, [] => .ok []
  | index, word :: rest =>
      match disassemble word with
      | .error cause => .error ⟨index, cause⟩
      | .ok text => do
          let texts ← disassembleFrom (index + 1) rest
          return text :: texts

/-- The texts of words. -/
def disassembleAll (words : List Word) : Except ListingError (List String) :=
  disassembleFrom 0 words

/-- The lines of a listing: one instruction each. -/
def listedLines (words : List Word) : Except ListingError (List String) := do
  let texts ← disassembleAll words
  return texts.map (· ++ "\n")

/-- One instruction per line. -/
def listing (words : List Word) : Except ListingError String :=
  (listedLines words).map String.join

/-- The output of a listing. -/
def listingProduction (words : List Word) : Production ListingError :=
  .ofTexts (listedLines words)

/-- The heading of a dump. -/
def dumpHeading : String :=
  "ADDR:\tINSTR:\t\tDIS-ASM:\n"

/-- The line of a word in a dump. -/
def dumpLine (index : Nat) (word : Word) (text : String) : String :=
  "0x" ++ Text.hexUpper 3 (Region.instruction.base.toNat + index) ++ ":\t0x" ++
    Text.hexUpper 6 word.toNat ++ "   ->\t" ++ text ++ "\n"

/-- The lines of words that are numbered from `index`. -/
def dumpLines : (index : Nat) → List Word → List String → List String
  | index, word :: words, text :: texts =>
      dumpLine index word text :: dumpLines (index + 1) words texts
  | _, _, _ => []

/-- The lines of a dump: its heading, and one for each word. -/
def dumpedLines (words : List Word) : Except ListingError (List String) := do
  let texts ← disassembleAll words
  return dumpHeading :: dumpLines 0 words texts

/-- A table of addresses, words and texts. -/
def dump (words : List Word) : Except ListingError String :=
  (dumpedLines words).map String.join

/-- The output of a dump. -/
def dumpProduction (words : List Word) : Production ListingError :=
  .ofTexts (dumpedLines words)

end Asm24.Machine
