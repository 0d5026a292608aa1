import Asm24.Assembly.Diagnostic
import Asm24.Assembly.Token

/-!
# Blocks

A header line opens a block of one of three sections, and the block holds the
lines up to the next header.  Before the first header there may be only blank
lines and comments.  A section may be opened several times; its last block
counts and the earlier ones are dropped.
-/

namespace Asm24.Assembly

/-- The sections of a program. -/
inductive Section where
  | readOnly
  | readWrite
  | instruction
  deriving DecidableEq, Repr

namespace Section

/-- The identifier of a section in headers. -/
def name : Section → String
  | .readOnly => "READ-ONLY"
  | .readWrite => "READ-WRITE"
  | .instruction => "INSTRUCTION"

/-- The section that an identifier names. -/
def ofName? (name : String) : Option Section :=
  if name = "READ-ONLY" then some .readOnly
  else if name = "READ-WRITE" then some .readWrite
  else if name = "INSTRUCTION" then some .instruction
  else none

end Section

/-- A header and the lines that follow it. -/
structure Block where
  owner : Section
  header : Int
  lines : List Line
  deriving DecidableEq, Repr

/-- Whether a line is a header. -/
def Line.isHeader (line : Line) : Bool :=
  line.tokens.head? == some ".SECTION"

/-- Whether a line may stand before the first header. -/
def Line.isInert (line : Line) : Bool :=
  line.tokens.isEmpty || Token.isComment line.text.toList

/-- The section that a header opens. -/
def Line.opens (header : Line) : Except Fault Section :=
  match header.tokens with
  | [_, name] =>
      match Section.ofName? name with
      | some opened => .ok opened
      | none => .error (.unknownSection name)
  | _ => .error .headerArity

namespace Block

/-- The lines up to the first header, and the blocks from there on. -/
def carve (source : String) :
    List Line → Except Failure (List Line × List Block)
  | [] => .ok ([], [])
  | line :: rest =>
      if line.isHeader then do
        let owner ← locate source line line.opens
        let (lines, blocks) ← carve source rest
        return ([], ⟨owner, line.number, lines⟩ :: blocks)
      else do
        let (lines, blocks) ← carve source rest
        return (line :: lines, blocks)

/-- The first line before every header that is neither blank nor a comment. -/
def stray? (lines : List Line) : Option Line :=
  (lines.takeWhile (fun line => !line.isHeader)).find?
    (fun line => !line.isInert)

/-- All blocks of a source, in order. -/
def ofLines (source : String) (lines : List Line) :
    Except Failure (List Block) :=
  match stray? lines with
  | some line => .error ⟨.textOutsideSection, line, source⟩
  | none => do
      let (_, blocks) ← carve source lines
      return blocks

end Block

/-- The block that counts for each section. -/
structure Sections where
  readOnly : Option Block := none
  readWrite : Option Block := none
  instruction : Option Block := none
  deriving DecidableEq, Repr

namespace Sections

/-- The last block of a section. -/
def lastBlock? (owner : Section) (blocks : List Block) : Option Block :=
  (blocks.filter (fun block => block.owner = owner)).getLast?

/-- The last block of each section. -/
def ofBlocks (blocks : List Block) : Sections where
  readOnly := lastBlock? .readOnly blocks
  readWrite := lastBlock? .readWrite blocks
  instruction := lastBlock? .instruction blocks

/-- The sections of a source. -/
def ofLines (source : String) (lines : List Line) :
    Except Failure Sections := do
  let blocks ← Block.ofLines source lines
  return ofBlocks blocks

/-- The block of a section. -/
def get? (sections : Sections) : Section → Option Block
  | .readOnly => sections.readOnly
  | .readWrite => sections.readWrite
  | .instruction => sections.instruction

/-- The lines of a section, none if it was never opened. -/
def body (sections : Sections) (owner : Section) : List Line :=
  match sections.get? owner with
  | some block => block.lines
  | none => []

/-- The blocks, sorted by the identifiers of their sections. -/
def toList (sections : Sections) : List Block :=
  [Section.instruction, .readOnly, .readWrite].filterMap sections.get?

end Sections

end Asm24.Assembly
