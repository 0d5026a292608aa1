import Asm24.Files.Buffer

/-!
# Writers

A writer takes output piece by piece.  It may fail on a piece, of which it then
has taken a number of bytes at its start; no piece is handed to it afterwards,
and its fault is the answer to the whole output.  A producer that fails has
handed on what left its buffer before, and its error is the answer.
-/

namespace Asm24.Files

/--
Where output goes.  By the bytes that it has taken already, a writer takes the
next piece, or it takes a number of bytes of the piece and fails.
-/
structure Writer (fault : Type) where
  fails? : (taken piece : List UInt8) → Option (Nat × fault)

namespace Writer

variable {fault : Type}

/--
Hand pieces to a writer up to the first on which it fails: what it then has
taken, and why.
-/
def takeAll (writer : Writer fault) (taken : List UInt8) :
    List (List UInt8) → List UInt8 × Option fault
  | [] => (taken, none)
  | piece :: rest =>
      match writer.fails? taken piece with
      | none => takeAll writer (taken ++ piece) rest
      | some (count, reason) => (taken ++ piece.take count, some reason)

/-- The writer that has room for a number of bytes. -/
def limited (limit : Nat) (reason : fault) : Writer fault where
  fails? taken piece :=
    if limit < taken.length + piece.length then
      some (limit - taken.length, reason)
    else
      none

end Writer

/-- Why a production did not reach its writer whole. -/
inductive DeliveryError (failure fault : Type) where
  | producer (error : failure)
  | writer (reason : fault)
  deriving DecidableEq, Repr

/--
Write a production to a writer: the answer, and the bytes that the writer has
taken.
-/
def Production.deliver {failure fault : Type} (production : Production failure)
    (writer : Writer fault) :
    Except (DeliveryError failure fault) Unit × List UInt8 :=
  match writer.takeAll [] production.pieces with
  | (taken, some reason) => (.error (.writer reason), taken)
  | (taken, none) =>
      match production.failure? with
      | none => (.ok (), taken)
      | some error => (.error (.producer error), taken)

end Asm24.Files
