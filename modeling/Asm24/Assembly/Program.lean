import Asm24.Assembly.Allocation
import Asm24.Assembly.Block
import Asm24.Assembly.Statement

/-!
# Programs

A source is assembled in passes.  Its lines are gathered into blocks; the
read-only block yields allocations and the instruction block yields statements,
and the labels of both go into one symbol table.  The statements are then linked
and encoded, and every word is decoded again and compared with the instruction
that it came from.

The read-write block is kept but has no directives, so its lines are not read.
-/

namespace Asm24.Assembly

open Asm24.Machine

/-- Why a source has no program. -/
inductive AssemblyError where
  /-- A fault of the source. -/
  | refused (failure : Failure)
  /-- A word that does not decode to the instruction that it encodes. -/
  | mismatch (source : String) (line : Line) (word : Word)
  deriving DecidableEq, Repr

/-- The text of an assembly error. -/
def AssemblyError.message : AssemblyError → String
  | .refused failure => failure.diagnostic.render
  | .mismatch source line word =>
      source ++ ":" ++ toString line.number ++ ": word 0x" ++
        Text.hexUpper 6 word.toNat ++
        " does not decode to " ++ Text.quote line.text

/-- An assembled source. -/
structure Program where
  source : String
  sections : Sections
  symbols : SymbolTable
  allocations : List Allocation
  statements : List Statement
  words : List Word
  deriving DecidableEq, Repr

/-- The line number of each instruction, by address. -/
def Program.sourceMap (program : Program) : List (Address × Int) :=
  program.statements.map (fun statement =>
    (statement.address, statement.line.number))

/--
The labels and allocations of read-only lines, after `used` words of the region
are taken.
-/
def readData (source : String) :
    SymbolTable → (used : UInt32) → List Line →
      Except Failure (SymbolTable × List Allocation)
  | symbols, _, [] => .ok (symbols, [])
  | symbols, used, line :: rest =>
      match line.content with
      | .label name => do
          let symbols ← locate source line
              (symbols.define name (Region.readOnly.base + used))
          readData source symbols used rest
      | .inert => readData source symbols used rest
      | .code tokens => do
          let allocation ← locate source line (Allocation.read tokens used)
          if Region.readOnly.size < used + allocation.size then
            .error ⟨.dataMemory, line, source⟩
          let (symbols, allocations) ← readData source symbols
              (used + allocation.size) rest
          return (symbols, { allocation with
            line := line.number } :: allocations)

/-- The instruction that a line writes, held to its operation. -/
def readStatement (tokens : List String) : Except Fault Instruction := do
  let instruction ← readInstruction tokens
  validate instruction
  return instruction

/--
The labels and statements of instruction lines, after `count` instructions.
-/
def readCode (source : String) :
    SymbolTable → (count : UInt32) → List Line →
      Except Failure (SymbolTable × List Statement)
  | symbols, _, [] => .ok (symbols, [])
  | symbols, count, line :: rest =>
      match line.content with
      | .label name => do
          let symbols ← locate source line
              (symbols.define name (Region.instruction.base + count))
          readCode source symbols count rest
      | .inert => readCode source symbols count rest
      | .code tokens => do
          let instruction ← locate source line (readStatement tokens)
          if Region.instruction.size ≤ count then
            .error ⟨.instructionMemory, line, source⟩
          let (symbols, statements) ← readCode source symbols (count + 1) rest
          return (symbols, ⟨Region.instruction.base + count, line,
            instruction⟩ :: statements)

/--
The word of a statement, after decoding it again has given the instruction back.
-/
def Statement.encode (source : String) (statement : Statement) :
    Except AssemblyError Word :=
  match statement.instruction.encode with
  | .error cause =>
      .error (.refused ⟨.unencodable cause, statement.line, source⟩)
  | .ok word =>
      match Instruction.decode word with
      | .ok decoded =>
          if decoded = statement.instruction.materialized then
            .ok word
          else
            .error (.mismatch source statement.line word)
      | .error _ => .error (.mismatch source statement.line word)

/-- Turn a failure of a pass into an assembly error. -/
def refuse {result : Type} : Except Failure result → Except AssemblyError result
  | .ok value => .ok value
  | .error failure => .error (.refused failure)

/-- The program of a list of lines. -/
def assembleLines (source : String) (lines : List Line) :
    Except AssemblyError Program := do
  let sections ← refuse (Sections.ofLines source lines)
  let (symbols, allocations) ←
    refuse (readData source .empty 0 (sections.body .readOnly))
  let (symbols, statements) ←
    refuse (readCode source symbols 0 (sections.body .instruction))
  match Statement.linkAll source symbols statements with
  | (_, some failure) => .error (.refused failure)
  | (statements, none) =>
      let words ← statements.mapM (Statement.encode source)
      return { source, sections, symbols, allocations, statements, words }

/-- The program of a source text. -/
def assemble (source text : String) : Except AssemblyError Program :=
  assembleLines source (Line.split text)

end Asm24.Assembly
