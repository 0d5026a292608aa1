import Asm24.Text.Utf8

/-!
# Buffered output

Output is collected in a buffer of fixed size and handed on in pieces.  A part
that fits into the free space is only collected.  A longer part is handed on at
once if the buffer is empty; otherwise it first fills the buffer, which is then
handed on, and the rest of the part is treated the same way.

When the producer of the parts succeeds, what is left in the buffer is handed on
too.  When it fails, that rest is lost.
-/

namespace Asm24.Files

/-- The pieces that have been handed on, and what is still collected. -/
structure Buffer where
  written : List (List UInt8) := []
  pending : List UInt8 := []
  deriving DecidableEq, Repr

namespace Buffer

/-- The number of bytes that a buffer holds. -/
def capacity : Nat := 4096

/-- Nothing handed on and nothing collected. -/
def empty : Buffer := {}

/-- Add one part of the output. -/
def add (buffer : Buffer) (part : List UInt8) : Buffer :=
  let free := capacity - buffer.pending.length
  if part.length ≤ free then
    { buffer with pending := buffer.pending ++ part }
  else if buffer.pending.isEmpty then
    { buffer with written := buffer.written ++ [part] }
  else
    let written := buffer.written ++ [buffer.pending ++ part.take free]
    let rest := part.drop free
    if rest.length ≤ capacity then
      { written, pending := rest }
    else
      { written := written ++ [rest], pending := [] }

/-- Add the parts of the output in order. -/
def addAll (buffer : Buffer) (parts : List (List UInt8)) : Buffer :=
  parts.foldl add buffer

/--
The pieces with what is still collected, which is handed on unless it is empty.
-/
def flushed (buffer : Buffer) : List (List UInt8) :=
  if buffer.pending.isEmpty then
    buffer.written
  else
    buffer.written ++ [buffer.pending]

end Buffer

/--
The output of a producer: its parts in order, and the error with which it ends.
-/
structure Production (failure : Type) where
  parts : List (List UInt8)
  failure? : Option failure := none

namespace Production

variable {failure : Type}

/--
The production of parts that are all known before the first is written, or of an
error.
-/
def ofParts : Except failure (List (List UInt8)) → Production failure
  | .ok parts => { parts }
  | .error error => { parts := [], failure? := some error }

/-- The production of texts, of which each is a part. -/
def ofTexts (texts : Except failure (List String)) : Production failure :=
  ofParts (texts.map (List.map (fun text => Text.encode text.toList)))

/-- The pieces in which the parts leave the buffer. -/
def pieces (production : Production failure) : List (List UInt8) :=
  let buffer := Buffer.empty.addAll production.parts
  match production.failure? with
  | none => buffer.flushed
  | some _ => buffer.written

/-- What a file holds after a production. -/
def content (production : Production failure) : List UInt8 :=
  production.pieces.flatten

end Production

end Asm24.Files
