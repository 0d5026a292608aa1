import Asm24.Yaml.Cursor

/-!
# Gaps in scalars

Blanks and line breaks inside a plain or quoted scalar are kept or folded.
Blanks on one line are kept.  A single line feed becomes a space, and of several
line feeds the first is dropped; blanks around them are dropped as well.
-/

namespace Asm24.Yaml

/-- The blanks and breaks since the last character of a scalar. -/
inductive Gap where
  | none
  | blanks (text : List Char)
  /-- Line breaks: the first, unless it was escaped, and the later ones. -/
  | breaks (first? : Option Char) (later : List Char)
  deriving DecidableEq, Repr

namespace Gap

/-- A gap with one more blank. -/
def blank (char : Char) : Gap → Gap
  | .none => .blanks [char]
  | .blanks text => .blanks (text ++ [char])
  | .breaks first? later => .breaks first? later

/-- A gap with one more line break. -/
def lineBreak (char : Char) : Gap → Gap
  | .breaks first? later => .breaks first? (later ++ [char])
  | _ => .breaks (some char) []

/-- A gap with one more blank or line break. -/
def add (char : Char) (gap : Gap) : Gap :=
  if isBreak char then gap.lineBreak char else gap.blank char

/-- Whether a gap has line breaks. -/
def isBroken : Gap → Bool
  | .breaks _ _ => true
  | _ => false

/-- The text that stands for a gap. -/
def text : Gap → List Char
  | .none => []
  | .blanks text => text
  | .breaks (some '\n') [] => [' ']
  | .breaks (some '\n') later => later
  | .breaks (some first) later => first :: later
  | .breaks Option.none later => later

end Gap

end Asm24.Yaml
