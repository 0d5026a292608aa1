import Asm24.Files.Buffer
import Asm24.Machine.Word

/-!
# Memory images

An image is the memory from address zero to the end of the instruction region,
as big-endian words of four bytes.  The words of a program stand at the start of
the instruction region, and all other words are zero.  It is written word by
word, unless the program has too many.  Reading an image gives the whole
instruction region, in which no word may be wider than an instruction.
-/

namespace Asm24.Image

open Asm24.Files (Production)
open Asm24.Machine

/-- The number of words before the instruction region. -/
def offset : Nat := Region.instruction.base.toNat

/-- The number of words in the instruction region. -/
def capacity : Nat := Region.instruction.size.toNat

/-- The number of bytes in an image. -/
def size : Nat := (offset + capacity) * 4

/-- Why words have no image, or bytes are none. -/
inductive ImageError where
  | tooManyWords (count : Nat)
  | wrongSize (bytes : Nat)
  | wideWord (address : Nat)
  deriving DecidableEq, Repr

/-- The description of an image error. -/
def ImageError.message : ImageError → String
  | .tooManyWords count =>
      "artifact: bad image size: " ++ toString count ++
        " instructions exceed capacity 0x" ++
        Text.hexUpper 1 capacity
  | .wrongSize bytes =>
      "artifact: bad image size: " ++ toString bytes ++ " bytes, want " ++
        toString size
  | .wideWord address =>
      "word at 0x" ++ Text.hexUpper 3 address ++ ": word wider than 24 bits"

/-- The four bytes of a word, most significant first. -/
def wordBytes (word : Word) : List UInt8 :=
  [UInt8.ofNat (word.toNat / 0x1000000), UInt8.ofNat (word.toNat / 0x10000),
    UInt8.ofNat (word.toNat / 0x100), UInt8.ofNat word.toNat]

/-- The word of four bytes, most significant first. -/
def wordOfBytes (first second third fourth : UInt8) : Word :=
  UInt32.ofNat
    (((first.toNat * 256 + second.toNat) * 256 + third.toNat) * 256 +
      fourth.toNat)

/-- The words of a byte string; bytes that fill no word are dropped. -/
def wordsOfBytes : List UInt8 → List Word
  | first :: second :: third :: fourth :: rest =>
      wordOfBytes first second third fourth :: wordsOfBytes rest
  | _ => []

/-- The words of the image of a program. -/
def layout (words : List Word) : List Word :=
  List.replicate offset 0 ++ words ++ List.replicate (capacity - words.length) 0

/-- The image of a program, word by word. -/
def parts (words : List Word) : Except ImageError (List (List UInt8)) :=
  if capacity < words.length then
    .error (.tooManyWords words.length)
  else
    .ok ((layout words).map wordBytes)

/-- The image of a program. -/
def write (words : List Word) : Except ImageError (List UInt8) :=
  (parts words).map List.flatten

/-- The output of an image. -/
def production (words : List Word) : Production ImageError :=
  .ofParts (parts words)

/-- Whether a word has more bits than an instruction. -/
def isWide (word : Word) : Bool :=
  0x1000000 ≤ word.toNat

/-- The instruction region of an image. -/
def read (bytes : List UInt8) : Except ImageError (List Word) :=
  if bytes.length ≠ size then
    .error (.wrongSize bytes.length)
  else
    let words := wordsOfBytes (bytes.drop (offset * 4))
    match words.findIdx? isWide with
    | some index => .error (.wideWord (offset + index))
    | none => .ok words

/-- The words without the zeros at their end. -/
def trimTrailing (words : List Word) : List Word :=
  (words.reverse.dropWhile (· == 0)).reverse

/-- A word is the word of its bytes. -/
theorem wordsOfBytes_wordBytes (word : Word) (rest : List UInt8) :
    wordsOfBytes (wordBytes word ++ rest) = word :: wordsOfBytes rest := by
  have bound := word.toNat_lt
  have split :
      ((word.toNat / 0x1000000 % 256 * 256 + word.toNat / 0x10000 % 256) * 256 +
        word.toNat / 0x100 % 256) * 256 + word.toNat % 256 = word.toNat := by
    omega
  simp only [wordBytes, List.cons_append, List.nil_append, wordsOfBytes,
    wordOfBytes, UInt8.toNat_ofNat', List.cons.injEq, and_true]
  rw [split]
  exact UInt32.ofNat_toNat

end Asm24.Image
