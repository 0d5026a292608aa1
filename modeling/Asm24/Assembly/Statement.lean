import Asm24.Assembly.Operation
import Asm24.Assembly.SymbolTable

/-!
# Statements and linking

A statement is an instruction at its address, with the line that wrote it.
Linking replaces the label of each immediate statement by the address that the
symbol table gives it.  It stops at the first label that the table does not
have, and the statements before it stay linked.
-/

namespace Asm24.Assembly

open Asm24.Machine

/-- An instruction at its address. -/
structure Statement where
  address : Address
  line : Line
  instruction : Instruction
  deriving DecidableEq, Repr

namespace Statement

/-- The label that linking has to replace. -/
def pending? (statement : Statement) : Option String :=
  if statement.instruction.shape = .immediate &&
    statement.instruction.immediate.unlinked then
    some statement.instruction.immediate.label
  else
    none

/-- The statement with a value in its number slot. -/
def resolve (statement : Statement) (address : Address) : Statement :=
  { statement with
    instruction :=
    { statement.instruction with immediate := .ofValue address.toNat } }

/-- The statement with its label replaced by its address. -/
def link (source : String) (symbols : SymbolTable) (statement : Statement) :
    Except Failure Statement :=
  match statement.pending? with
  | none => .ok statement
  | some label =>
      match symbols.lookup label with
      | some address => .ok (statement.resolve address)
      | none => .error ⟨.undeclaredLabel label, statement.line, source⟩

/--
The statements with their labels replaced, and the failure at which linking
stopped.  From that statement on nothing is replaced.
-/
def linkAll (source : String) (symbols : SymbolTable) :
    List Statement → List Statement × Option Failure
  | [] => ([], none)
  | statement :: rest =>
      match statement.link source symbols with
      | .error failure => (statement :: rest, some failure)
      | .ok linked =>
          let (others, failure) := linkAll source symbols rest
          (linked :: others, failure)

@[simp]
theorem length_linkAll (source : String) (symbols : SymbolTable)
    (statements : List Statement) :
    (linkAll source symbols statements).1.length = statements.length := by
  induction statements with
  | nil => rfl
  | cons statement rest ih =>
      unfold linkAll
      split
      · rfl
      · simp [ih]

end Statement

end Asm24.Assembly
