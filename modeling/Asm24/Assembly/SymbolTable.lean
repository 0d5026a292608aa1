import Asm24.Assembly.Diagnostic

/-!
# Symbol tables

A symbol table binds labels to addresses, in the order of their declaration.  A
label is bound at most once: binding it again is a fault and leaves the table as
it was.

The listing of a table is sorted by address, and labels of one address keep
their order.
-/

namespace Asm24.Assembly

open Asm24.Machine

/-- Labels and their addresses, in the order of declaration. -/
structure SymbolTable where
  entries : List (String × Address) := []
  deriving DecidableEq, Repr

namespace SymbolTable

/-- The table without labels. -/
def empty : SymbolTable := {}

/-- The address of a label. -/
def lookup (table : SymbolTable) (name : String) : Option Address :=
  table.entries.lookup name

/-- The table with one more label. -/
def define (table : SymbolTable) (name : String) (address : Address) :
    Except Fault SymbolTable :=
  match table.lookup name with
  | some _ => .error (.repeatedLabel name)
  | none => .ok ⟨table.entries ++ [(name, address)]⟩

/-- The labels, in the order of declaration. -/
def names (table : SymbolTable) : List String :=
  table.entries.map Prod.fst

/-- The number of labels. -/
def size (table : SymbolTable) : Nat :=
  table.entries.length

/-- The labels and addresses, sorted by address. -/
def sorted (table : SymbolTable) : List (String × Address) :=
  table.entries.mergeSort (fun left right => left.2 ≤ right.2)

/-- The line of a label in the listing. -/
def renderEntry (entry : String × Address) : String :=
  "  " ++ String.ofList (entry.1.toList.rightpad 20 ' ') ++ "  0x" ++
    Text.hexUpper 3 entry.2.toNat ++ "\n"

/-- The listing of the table. -/
def render (table : SymbolTable) : String :=
  if table.entries.isEmpty then
    "Labels: (empty)\n"
  else
    "Labels:\n" ++ String.join (table.sorted.map renderEntry)

@[simp]
theorem length_names (table : SymbolTable) :
    table.names.length = table.size := by
  simp [names, size]

end SymbolTable

end Asm24.Assembly
