import Asm24.Text.Blank
import Asm24.Text.UpperCase

/-!
# Source lines

A source text is cut at line feeds, from which carriage returns in front of
them are taken off first.  Each line is trimmed, put in upper case and numbered
from one, so neither indentation nor letter case reach the assembler.  A
carriage return inside a line does, as the white space that it is.
-/

namespace Asm24.Assembly

/-- A numbered line of source text. -/
structure Line where
  number : Int
  text : String
  deriving DecidableEq, Repr

namespace Line

/-- The characters of a line in the form that the assembler reads. -/
def normalize (raw : List Char) : List Char :=
  Text.upperCase (Text.trim raw)

/--
The text without the carriage returns that stand right before a line feed.
-/
def dropReturns : List Char → List Char
  | [] => []
  | char :: rest =>
      if char = '\r' ∧ rest.head? = some '\n' then
        dropReturns rest
      else
        char :: dropReturns rest

/-- The lines of a source text. -/
def split (text : String) : List Line :=
  ((Text.split (· == '\n') (dropReturns text.toList)).zipIdx 1).map
    (fun (raw, number) => ⟨number, String.ofList (normalize raw)⟩)

/-- The words of a line. -/
def tokens (line : Line) : List String :=
  (Text.words line.text.toList).map String.ofList

end Line

end Asm24.Assembly
