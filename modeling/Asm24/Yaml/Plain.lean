import Asm24.Yaml.Gap

/-!
# Plain scalars

A plain scalar stands without quotation marks.  It ends at a colon before a
blank, at a comment, at a mark between documents, at a line that is indented
less than asked for and, inside brackets, at the signs of a collection.
-/

namespace Asm24.Yaml

/-- Where in a plain scalar a character stands. -/
inductive PlainPlace where
  | start
  | afterText
  | afterGap
  deriving DecidableEq, Repr

/-- A plain scalar that has been read. -/
structure Plain where
  text : List Char
  cursor : Cursor
  /-- Whether line breaks follow the scalar. -/
  broken : Bool
  deriving Repr

/--
Whether a character ends a plain scalar, given what follows the character.
-/
def endsPlain (inFlow : Bool) (char : Char) (rest : List Char) : Bool :=
  (char == ':' && endsWord rest) ||
    (inFlow && (char == ',' || char == '?' || char == '[' || char == ']' ||
      char == '{' ||
      char == '}'))

/--
Read a plain scalar on.  `margin` is the column at which its lines start at the
earliest, and `taken` is the text so far in reverse.
-/
def readPlainFrom (inFlow : Bool) (margin : Int) (start : Nat) :
    List Char → Mark → PlainPlace → Gap → (taken : List Char) →
      Except Fault Plain
  | [], mark, _, gap, taken => .ok ⟨taken.reverse, ⟨[], mark⟩, gap.isBroken⟩
  | char :: rest, mark, place, gap, taken =>
      if isBlank char || isBreak char then
        if gap.isBroken && char == '\t' &&
          decide ((mark.column : Int) < margin) then
          .error (.token .tabBeforePlain start mark.line)
        else
          readPlainFrom inFlow margin start rest (mark.after char) .afterGap
            (gap.add char) taken
      else
        let outside :=
          place == .afterGap && !inFlow && decide ((mark.column : Int) < margin)
        let marked :=
          place != .afterText &&
            (char == '#' || atDocumentMark mark (char :: rest))
        if outside || marked || endsPlain inFlow char rest then
          .ok ⟨taken.reverse, ⟨char :: rest, mark⟩, gap.isBroken⟩
        else
          readPlainFrom inFlow margin start rest (mark.after char)
            .afterText .none (char :: (gap.text.reverse ++ taken))

/-- Read a plain scalar. -/
def readPlain (inFlow : Bool) (margin : Int) (cursor : Cursor) :
    Except Fault Plain :=
  readPlainFrom inFlow margin cursor.mark.line cursor.rest cursor.mark
    .start .none []

end Asm24.Yaml
