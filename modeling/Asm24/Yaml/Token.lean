import Asm24.Yaml.Block
import Asm24.Yaml.Plain
import Asm24.Yaml.Property
import Asm24.Yaml.Quoted

/-!
# Tokens

A document is a sequence of tokens: signs of structure, properties and scalars.
In block style the structure is shown by indentation, and the tokens that open
and close a block have no characters of their own.

A scalar turns out to be a key only at the colon after it.  It may be one if it
stands on the same line and starts at most 1024 characters before.  The tokens
that mark the key are then put in front of it, so a token that may still become
a key is held back.
-/

namespace Asm24.Yaml

/-- What a token is. -/
inductive TokenKind where
  | finish
  | directive (value : Directive)
  | documentStart
  | documentEnd
  | blockSequence
  | blockMapping
  | blockEnd
  | flowSequence
  | flowSequenceEnd
  | flowMapping
  | flowMappingEnd
  | blockEntry
  | flowEntry
  | key
  | value
  | alias (name : String)
  | anchor (name : String)
  | tag (written : WrittenTag)
  | scalar (plain : Bool) (text : String)
  deriving DecidableEq, Repr

/-- A token and the line on which it starts. -/
structure Token where
  kind : TokenKind
  line : Nat
  deriving DecidableEq, Repr

/-- A token that becomes a key if a colon follows. -/
structure PossibleKey where
  /-- The number of tokens in front of it. -/
  number : Nat
  /-- Whether nothing but a key may stand at its place. -/
  required : Bool
  mark : Mark
  deriving DecidableEq, Repr

/-- The tokens of a document, read as far as they have been asked for. -/
structure Tokens where
  cursor : Cursor
  /-- How many characters the document has. -/
  size : Nat
  /-- The tokens that are read and not taken. -/
  waiting : List Token := []
  /-- How many tokens are taken. -/
  taken : Nat := 0
  /-- The columns of the open blocks, the innermost first. -/
  blocks : List Nat := []
  /-- The possible key of the innermost collection in brackets. -/
  possible? : Option PossibleKey := none
  /-- The possible keys of the collections around it. -/
  outer : List (Option PossibleKey) := []
  /-- Whether a key may start here. -/
  keyAllowed : Bool := true
  deriving Repr

/-- How deep collections may be nested. -/
def depthLimit : Nat := 10000

/-- Whether only blanks and line breaks stand in front of a comment. -/
def leadsToComment (text : List Char) : Bool :=
  (text.dropWhile fun char => isBlank char || isBreak char).head? == some '#'

/--
The cursor at the next token, and whether a key may start there.  Blanks,
comments and line breaks are skipped; a tab is no blank where a key may start,
except in front of a further comment.
-/
def skipToToken (inFlow : Bool) :
    List Char → Mark → (inComment afterComment keyAllowed : Bool) →
      Cursor × Bool
  | [], mark, _, _, keyAllowed => (⟨[], mark⟩, keyAllowed)
  | char :: rest, mark, inComment, afterComment, keyAllowed =>
      if isBreak char then
        skipToToken inFlow rest (mark.after char) false afterComment
          (keyAllowed || !inFlow)
      else if inComment || char == '#' then
        skipToToken inFlow rest (mark.after char) true true keyAllowed
      else
        let tabAllowed (_ : Unit) :=
          inFlow || !keyAllowed || (afterComment && leadsToComment rest)
        if char == ' ' || (mark.column == 0 && char.toNat == 0xFEFF) ||
            (char == '\t' && tabAllowed ()) then
          skipToToken inFlow rest (mark.after char) false afterComment
            keyAllowed
        else
          (⟨char :: rest, mark⟩, keyAllowed)

namespace Tokens

/-- Whether the tokens stand in a collection in brackets. -/
def inFlow (tokens : Tokens) : Bool :=
  !tokens.outer.isEmpty

/-- The column of the innermost block, or minus one outside of all blocks. -/
def indentation (tokens : Tokens) : Int :=
  match tokens.blocks with
  | column :: _ => column
  | [] => -1

/-- The tokens with one more at the end. -/
def push (tokens : Tokens) (kind : TokenKind) (line : Nat) : Tokens :=
  { tokens with waiting := tokens.waiting ++ [⟨kind, line⟩] }

/-- The tokens with one more in front of the token with a number. -/
def insert (tokens : Tokens) (number : Nat) (kind : TokenKind) (line : Nat) :
    Tokens :=
  { tokens with
    waiting := tokens.waiting.insertIdx (number - tokens.taken) ⟨kind, line⟩ }

/-- A fault at the cursor, in a construct that starts on a line. -/
def fault (tokens : Tokens) (problem : TokenProblem) (start : Nat) : Fault :=
  tokens.cursor.fault problem start

/-- A fault at the cursor. -/
def faultHere (tokens : Tokens) (problem : TokenProblem) : Fault :=
  tokens.fault problem tokens.cursor.mark.line

/-- Whether a colon at the cursor comes too late for a key. -/
def isStale (tokens : Tokens) (key : PossibleKey) : Bool :=
  key.mark.line < tokens.cursor.mark.line ||
    key.mark.index + 1024 < tokens.cursor.mark.index

/-- Give up the possible key at this level. -/
def dropKey (tokens : Tokens) : Except Fault Tokens :=
  match tokens.possible? with
  | some key =>
      if key.required then
        .error (tokens.fault .keyWithoutValue key.mark.line)
      else
        .ok { tokens with possible? := none }
  | none => .ok tokens

/-- Take note that a key may start at the cursor. -/
def saveKey (tokens : Tokens) : Except Fault Tokens :=
  if tokens.keyAllowed then do
    let mark := tokens.cursor.mark
    let required := !tokens.inFlow && tokens.indentation == (mark.column : Int)
    let tokens ← tokens.dropKey
    let number := tokens.taken + tokens.waiting.length
    return { tokens with possible? := some { number, required, mark } }
  else
    .ok tokens

/-- Close the blocks that are indented further than a column. -/
def closeBlocks (tokens : Tokens) (column : Int) (line : Nat) : Tokens :=
  if tokens.inFlow then
    tokens
  else
    let closed := tokens.blocks.takeWhile fun (block : Nat) =>
      decide (column < (block : Int))
    { tokens with
      blocks := tokens.blocks.drop closed.length
      waiting := tokens.waiting ++ closed.map fun _ => ⟨.blockEnd, line⟩ }

/--
Open a block at a column, unless one is open there; its token goes in front of a
number.
-/
def openBlock (tokens : Tokens) (column number : Nat) (kind : TokenKind)
    (line : Nat) : Except Fault Tokens :=
  if tokens.inFlow || decide ((column : Int) ≤ tokens.indentation) then
    .ok tokens
  else
    let opened := { tokens with blocks := column :: tokens.blocks }
    if depthLimit < opened.blocks.length then
      .error (tokens.faultHere .depth)
    else
      .ok (opened.insert number kind line)

/-- The number of the next token to be read. -/
def nextNumber (tokens : Tokens) : Nat :=
  tokens.taken + tokens.waiting.length

/-- Open a block at the cursor. -/
def openBlockHere (tokens : Tokens) (kind : TokenKind) : Except Fault Tokens :=
  tokens.openBlock tokens.cursor.mark.column tokens.nextNumber kind
    tokens.cursor.mark.line

/-- Read a token of a number of characters. -/
def readSign (tokens : Tokens) (length : Nat) (kind : TokenKind) : Tokens :=
  { tokens with
    cursor := tokens.cursor.skip length }.push kind tokens.cursor.mark.line

/-- Read the end of the document, which stands at the start of a line. -/
def readFinish (tokens : Tokens) : Except Fault Tokens := do
  let mark := tokens.cursor.mark
  let mark :=
    if mark.column = 0 then
      mark
    else
      { mark with line := mark.line + 1, column := 0 }
  let tokens := { tokens with cursor := { tokens.cursor with mark } }
  let tokens ← (tokens.closeBlocks (-1) mark.line).dropKey
  return { tokens with keyAllowed := false }.push .finish mark.line

/-- Prepare for a token that stands outside of all blocks. -/
def leaveBlocks (tokens : Tokens) : Except Fault Tokens := do
  let tokens ← (tokens.closeBlocks (-1) tokens.cursor.mark.line).dropKey
  return { tokens with keyAllowed := false }

/-- Read a directive. -/
def readDirectiveToken (tokens : Tokens) : Except Fault Tokens := do
  let tokens ← tokens.leaveBlocks
  let line := tokens.cursor.mark.line
  let (directive, cursor) ← readDirective tokens.cursor
  return { tokens with cursor }.push (.directive directive) line

/-- Read a mark between documents. -/
def readDocumentMark (tokens : Tokens) (kind : TokenKind) :
    Except Fault Tokens := do
  let tokens ← tokens.leaveBlocks
  return tokens.readSign 3 kind

/-- Read the bracket that opens a collection. -/
def readOpening (tokens : Tokens) (kind : TokenKind) : Except Fault Tokens := do
  let tokens ← tokens.saveKey
  let tokens :=
    { tokens with outer := tokens.possible? :: tokens.outer, possible? := none }
  if depthLimit < tokens.outer.length then
    .error (tokens.faultHere .depth)
  else
    return { tokens with keyAllowed := true }.readSign 1 kind

/-- Read the bracket that closes a collection. -/
def readClosing (tokens : Tokens) (kind : TokenKind) : Except Fault Tokens := do
  let tokens ← tokens.dropKey
  let tokens :=
    match tokens.outer with
    | possible? :: outer => { tokens with possible?, outer }
    | [] => tokens
  return { tokens with keyAllowed := false }.readSign 1 kind

/-- Read the comma between the entries of a collection. -/
def readComma (tokens : Tokens) : Except Fault Tokens := do
  let tokens ← tokens.dropKey
  return { tokens with keyAllowed := true }.readSign 1 .flowEntry

/-- Read the hyphen in front of an entry. -/
def readHyphen (tokens : Tokens) : Except Fault Tokens := do
  let tokens ←
    if tokens.inFlow then pure tokens
    else if tokens.keyAllowed then tokens.openBlockHere .blockSequence
    else .error (tokens.faultHere .entryNotAllowed)
  let tokens ← tokens.dropKey
  return { tokens with keyAllowed := true }.readSign 1 .blockEntry

/-- Read the question mark in front of a key. -/
def readKeySign (tokens : Tokens) : Except Fault Tokens := do
  let tokens ←
    if tokens.inFlow then pure tokens
    else if tokens.keyAllowed then tokens.openBlockHere .blockMapping
    else .error (tokens.faultHere .keyNotAllowed)
  let tokens ← tokens.dropKey
  return { tokens with keyAllowed := !tokens.inFlow }.readSign 1 .key

/--
Read the colon in front of a value; a possible key before it becomes a key.
-/
def readColon (tokens : Tokens) : Except Fault Tokens := do
  match tokens.possible? with
  | some key =>
      if tokens.isStale key then
        if key.required then
          .error (tokens.fault .keyWithoutValue key.mark.line)
        else
          afterNoKey { tokens with possible? := none }
      else
        let tokens := tokens.insert key.number .key key.mark.line
        let tokens ←
          tokens.openBlock key.mark.column key.number .blockMapping
            key.mark.line
        return { tokens with
          possible? := none, keyAllowed := false }.readSign 1 .value
  | none => afterNoKey tokens
where
  /-- Read a colon that follows no possible key. -/
  afterNoKey (tokens : Tokens) : Except Fault Tokens := do
    let tokens ←
      if tokens.inFlow then pure tokens
      else if tokens.keyAllowed then tokens.openBlockHere .blockMapping
      else .error (tokens.faultHere .valueNotAllowed)
    return { tokens with keyAllowed := !tokens.inFlow }.readSign 1 .value

/-- Read an anchor or an alias. -/
def readNameToken (tokens : Tokens) (kind : String → TokenKind) :
    Except Fault Tokens := do
  let tokens ← tokens.saveKey
  let (name, cursor) ← readName tokens.cursor
  return { tokens with
    cursor, keyAllowed := false }.push (kind name) tokens.cursor.mark.line

/-- Read a tag. -/
def readTagToken (tokens : Tokens) : Except Fault Tokens := do
  let tokens ← tokens.saveKey
  let (written, cursor) ← readTag tokens.cursor
  return { tokens with
    cursor, keyAllowed := false }.push (.tag written) tokens.cursor.mark.line

/-- Read a block scalar. -/
def readBlockToken (tokens : Tokens) (literal : Bool) :
    Except Fault Tokens := do
  let tokens ← tokens.dropKey
  let scalar ← readBlock literal tokens.indentation tokens.cursor
  return { tokens with cursor := scalar.cursor, keyAllowed := true }.push
    (.scalar false (String.ofList scalar.text)) tokens.cursor.mark.line

/-- Read a quoted scalar. -/
def readQuotedToken (tokens : Tokens) (single : Bool) :
    Except Fault Tokens := do
  let tokens ← tokens.saveKey
  let scalar ← readQuoted single tokens.cursor
  return { tokens with cursor := scalar.cursor, keyAllowed := false }.push
    (.scalar false (String.ofList scalar.text)) tokens.cursor.mark.line

/-- Read a plain scalar. -/
def readPlainToken (tokens : Tokens) : Except Fault Tokens := do
  let tokens ← tokens.saveKey
  let scalar ← readPlain tokens.inFlow (tokens.indentation + 1) tokens.cursor
  return { tokens with
    cursor := scalar.cursor, keyAllowed := scalar.broken }.push
    (.scalar true (String.ofList scalar.text)) tokens.cursor.mark.line

/-- Whether a character starts no plain scalar, except as said below. -/
def isIndicator (char : Char) : Bool :=
  ['-', '?', ':', ',', '[', ']', '{', '}', '#', '&', '*', '!', '|', '>', '"',
    '%', '@'].contains char || char == Text.singleQuote ||
      char == Char.ofNat 0x60

/-- Whether a plain scalar starts with a character, given what follows it. -/
def startsPlain (inFlow : Bool) (char : Char) (rest : List Char) : Bool :=
  !(isBlank char || isBreak char || isIndicator char) ||
    (char == '-' && !rest.head?.any isBlank) ||
    (!inFlow && (char == '?' || char == ':') && !endsWord rest)

/-- Read the token that starts with a character. -/
def readToken (tokens : Tokens) (char : Char) (rest : List Char) :
    Except Fault Tokens :=
  let free := tokens.inFlow || endsWord rest
  match char with
  | '[' => tokens.readOpening .flowSequence
  | '{' => tokens.readOpening .flowMapping
  | ']' => tokens.readClosing .flowSequenceEnd
  | '}' => tokens.readClosing .flowMappingEnd
  | ',' => tokens.readComma
  | '*' => tokens.readNameToken .alias
  | '&' => tokens.readNameToken .anchor
  | '!' => tokens.readTagToken
  | '"' => tokens.readQuotedToken false
  | _ =>
      if char = Text.singleQuote then tokens.readQuotedToken true
      else if char = '-' ∧ endsWord rest then tokens.readHyphen
      else if char = '?' ∧ free then tokens.readKeySign
      else if char = ':' ∧ free then tokens.readColon
      else if char = '|' ∧ !tokens.inFlow then tokens.readBlockToken true
      else if char = '>' ∧ !tokens.inFlow then tokens.readBlockToken false
      else if startsPlain tokens.inFlow char rest then tokens.readPlainToken
      else .error (tokens.faultHere .noToken)

/-- Skip a comment on the line of the last token. -/
def skipLineComment (tokens : Tokens) : Tokens :=
  let after := tokens.cursor.skipWhile isBlank
  let afterHyphen := tokens.waiting.getLast?.any fun token =>
    token.kind == .blockEntry
  if !afterHyphen && !tokens.cursor.mark.indenting &&
    after.rest.head? == some '#' then
    { tokens with cursor := after.skipWhile (!isBreak ·) }
  else
    tokens

/-- Read a further token, with those that have no characters. -/
def readNext (tokens : Tokens) : Except Fault Tokens :=
  let before := tokens.cursor.mark.line
  let (cursor, keyAllowed) :=
    skipToToken tokens.inFlow tokens.cursor.rest tokens.cursor.mark false false
      tokens.keyAllowed
  let tokens :=
    { tokens with cursor, keyAllowed }.closeBlocks cursor.mark.column before
  match cursor.rest with
  | [] => tokens.readFinish
  | char :: rest =>
      if cursor.mark.column = 0 ∧ char = '%' then
        tokens.readDirectiveToken
      else if atDocumentMark cursor.mark (char :: rest) then
        tokens.readDocumentMark (if char = '-' then
          .documentStart else .documentEnd)
      else do
        return (← tokens.readToken char rest).skipLineComment

/-- The possible key that is the next token to be taken. -/
def heldBack? (tokens : Tokens) : Option PossibleKey :=
  (tokens.possible? :: tokens.outer).findSome? fun possible? =>
    possible?.filter fun key => key.number == tokens.taken

/--
Read until three tokens are waiting and the first of them is not held back.
Every token but the last takes a character, so a `fuel` of the characters of the
document and some more suffices.
-/
def ready : (fuel : Nat) → Tokens → Except Fault Tokens
  | 0, tokens => .ok tokens
  | fuel + 1, tokens =>
      if tokens.waiting.length ≤ 2 then do
        ready fuel (← tokens.readNext)
      else
        match tokens.heldBack? with
        | none => .ok tokens
        | some key =>
            if !tokens.isStale key then do
              ready fuel (← tokens.readNext)
            else if key.required then
              .error (tokens.fault .keyWithoutValue key.mark.line)
            else
              .ok tokens

/-- The next token, and the tokens from it on. -/
def peek (tokens : Tokens) : Except Fault (Token × Tokens) := do
  let tokens ← tokens.ready (tokens.size + 8)
  match tokens.waiting with
  | token :: _ => return (token, tokens)
  | [] => return (⟨.finish, tokens.cursor.mark.line⟩, tokens)

/-- The tokens after the next. -/
def advance (tokens : Tokens) : Tokens :=
  { tokens with waiting := tokens.waiting.drop 1, taken := tokens.taken + 1 }

end Tokens

end Asm24.Yaml
