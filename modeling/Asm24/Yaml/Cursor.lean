import Asm24.Yaml.Fault

/-!
# Places in a document

A cursor is what is left of a document together with the place where that
starts.
-/

namespace Asm24.Yaml

/-- Whether a character is a space or a tab. -/
def isBlank (char : Char) : Bool :=
  char == ' ' || char == '\t'

/-- Whether a character ends a line. -/
def isBreak (char : Char) : Bool :=
  char == '\n' || char.toNat == 0x2028 || char.toNat == 0x2029

/-- Whether a character may stand in the name of an anchor or of a directive. -/
def isWord (char : Char) : Bool :=
  char.isAlphanum || char == '_' || char == '-'

/-- Whether a text is at its end, at a blank or at a line break. -/
def endsWord : List Char → Bool
  | [] => true
  | char :: _ => isBlank char || isBreak char

/-- Whether a text is at its end or at a line break. -/
def endsLine : List Char → Bool
  | [] => true
  | char :: _ => isBreak char

/-- A place in a document. -/
structure Mark where
  line : Nat := 0
  column : Nat := 0
  index : Nat := 0
  /-- Whether a line break came before, with only blanks since. -/
  indenting : Bool := false
  deriving DecidableEq, Repr

/-- The place after a character. -/
def Mark.after (mark : Mark) (char : Char) : Mark :=
  if isBreak char then
    { line := mark.line + 1, column := 0, index := mark.index + 1,
      indenting := true }
  else
    { mark with
      column := mark.column + 1
      index := mark.index + 1
      indenting := mark.indenting && isBlank char }

/-- What is left of a document, and where. -/
structure Cursor where
  rest : List Char
  mark : Mark := {}
  deriving DecidableEq, Repr

namespace Cursor

/-- The cursor after the characters that meet a condition. -/
def skipFrom (condition : Char → Bool) : List Char → Mark → Cursor
  | [], mark => ⟨[], mark⟩
  | char :: rest, mark =>
      if condition char then
        skipFrom condition rest (mark.after char)
      else
        ⟨char :: rest, mark⟩

/-- The cursor after the characters that meet a condition. -/
def skipWhile (condition : Char → Bool) (cursor : Cursor) : Cursor :=
  skipFrom condition cursor.rest cursor.mark

/-- The cursor after a number of characters. -/
def skip : Nat → Cursor → Cursor
  | 0, cursor => cursor
  | _ + 1, ⟨[], mark⟩ => ⟨[], mark⟩
  | count + 1, ⟨char :: rest, mark⟩ => skip count ⟨rest, mark.after char⟩

/-- A fault in a construct that starts on a line, noticed at a cursor. -/
def fault (cursor : Cursor) (problem : TokenProblem) (start : Nat) : Fault :=
  .token problem start cursor.mark.line

end Cursor

/-- Whether a mark between documents stands at a place. -/
def atDocumentMark (mark : Mark) : List Char → Bool
  | first :: second :: third :: rest =>
      mark.column == 0 && (first == '-' || first == '.') && second == first &&
        third == first &&
        endsWord rest
  | _ => false

end Asm24.Yaml
