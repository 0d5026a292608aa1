import Asm24.Yaml.Cursor

/-!
# Block scalars

A block scalar is a run of lines below a header.  The header says whether line
breaks are kept or folded, how much of the end is kept, and may give the
indentation; otherwise the first line does.
-/

namespace Asm24.Yaml

/-- How much of the line breaks at its end a block scalar keeps. -/
inductive Chomping where
  | clip
  | strip
  | keep
  deriving DecidableEq, Repr

/-- What the header of a block scalar says. -/
structure BlockHeader where
  chomping : Chomping := .clip
  /--
  The indentation relative to the enclosing block; zero if it is not given.
  -/
  increment : Nat := 0
  deriving DecidableEq, Repr

/-- The chomping that a character names. -/
def chomping? : Char → Option Chomping
  | '+' => some .keep
  | '-' => some .strip
  | _ => none

/-- An indentation at the start of a text, with the text after it. -/
def readIncrement : List Char → Except TokenProblem (Nat × Nat)
  | [] => .ok (0, 0)
  | char :: _ =>
      if char = '0' then .error .zeroIndentation
      else if char.isDigit then .ok (char.toNat - 48, 1)
      else .ok (0, 0)

/-- A chomping at the start of a text, and how long it is. -/
def readChomping : List Char → Chomping × Nat
  | [] => (.clip, 0)
  | char :: _ =>
      match chomping? char with
      | some chomping => (chomping, 1)
      | none => (.clip, 0)

/--
Read the header of a block scalar: chomping and indentation in either order.
-/
def readHeader (start : Nat) (cursor : Cursor) :
    Except Fault (BlockHeader × Cursor) :=
  let failed (problem : TokenProblem) (cursor : Cursor) : Fault :=
    cursor.fault problem start
  let (chomping, length) := readChomping cursor.rest
  let cursor := cursor.skip length
  match readIncrement cursor.rest with
  | .error problem => .error (failed problem cursor)
  | .ok (increment, digits) =>
      let cursor := cursor.skip digits
      let (chomping, length) :=
        if length = 0 ∧ digits ≠ 0 then
          readChomping cursor.rest
        else
          (chomping, 0)
      let cursor := (cursor.skip length).skipWhile isBlank
      let cursor :=
        if cursor.rest.head? = some '#' then
          cursor.skipWhile (!isBreak ·)
        else
          cursor
      if endsLine cursor.rest then
        .ok ({ chomping, increment }, cursor.skip 1)
      else
        .error (failed .noCommentOrBreak cursor)

/-- The empty lines in front of a line, and how far they and it are indented. -/
structure EmptyLines where
  breaks : List Char
  widest : Nat
  cursor : Cursor
  deriving Repr

/--
Read indentation and empty lines; `margin` is the indentation, or zero if it is
not known.
-/
def readEmptyLines (start margin : Nat) :
    List Char → Mark → (breaks : List Char) → (widest : Nat) →
      Except Fault EmptyLines
  | [], mark, breaks, widest => .ok ⟨breaks, max widest mark.column, ⟨[], mark⟩⟩
  | char :: rest, mark, breaks, widest =>
      let free := margin = 0 ∨ mark.column < margin
      if free ∧ char = ' ' then
        readEmptyLines start margin rest (mark.after char) breaks widest
      else if free ∧ char = '\t' then
        .error (.token .tabInIndentation start mark.line)
      else if isBreak char then
        readEmptyLines start margin rest (mark.after char) (breaks ++ [char])
          (max widest mark.column)
      else
        .ok ⟨breaks, max widest mark.column, ⟨char :: rest, mark⟩⟩

/-- The lines of a block scalar that have been read. -/
structure BlockText where
  text : List Char := []
  /-- The break of the last line, not yet part of the text. -/
  pending : List Char := []
  /-- The empty lines after it. -/
  trailing : List Char
  /-- Whether the last line started with a blank. -/
  afterBlank : Bool := false
  deriving Repr

/--
The text in front of the next line: a fold is a space, unless a line starts with
a blank.
-/
def BlockText.joint (literal startsBlank : Bool) (block : BlockText) :
    List Char :=
  if !literal && !block.afterBlank && !startsBlank &&
    block.pending.head? == some '\n' then
    if block.trailing.isEmpty then [' '] else block.trailing
  else
    block.pending ++ block.trailing

/--
Read the lines of a block scalar.  Each takes a character, so a `fuel` of those
left suffices.
-/
def readLines (literal : Bool) (start margin : Nat) :
    (fuel : Nat) → Cursor → BlockText → Except Fault (BlockText × Cursor)
  | 0, cursor, block => .ok (block, cursor)
  | fuel + 1, cursor, block =>
      if cursor.mark.column ≠ margin ∨ cursor.rest.isEmpty then
        .ok (block, cursor)
      else do
        let startsBlank := cursor.rest.head?.any isBlank
        let line := cursor.rest.takeWhile (!isBreak ·)
        let ending := cursor.skipWhile (!isBreak ·)
        let next := ending.skip 1
        let lines ← readEmptyLines start margin next.rest next.mark [] 0
        readLines literal start margin fuel lines.cursor
          { text := block.text ++ block.joint literal startsBlank ++ line
            pending := ending.rest.take 1
            trailing := lines.breaks
            afterBlank := startsBlank }

/-- A block scalar that has been read. -/
structure BlockScalar where
  text : List Char
  cursor : Cursor
  deriving Repr

/--
Read a block scalar, from its sign.  `outer` is the indentation of the enclosing
block.
-/
def readBlock (literal : Bool) (outer : Int) (cursor : Cursor) :
    Except Fault BlockScalar := do
  let start := cursor.mark.line
  let (header, body) ← readHeader start (cursor.skip 1)
  let given :=
    if header.increment = 0 then 0 else (max outer 0).toNat + header.increment
  let lines ← readEmptyLines start given body.rest body.mark [] 0
  let margin :=
    if given = 0 then max (max lines.widest (outer + 1).toNat) 1 else given
  let (block, cursor) ←
    readLines literal start margin lines.cursor.rest.length lines.cursor
      { trailing := lines.breaks }
  let text :=
    match header.chomping with
    | .strip => block.text
    | .clip => block.text ++ block.pending
    | .keep => block.text ++ block.pending ++ block.trailing
  return ⟨text, cursor⟩

end Asm24.Yaml
