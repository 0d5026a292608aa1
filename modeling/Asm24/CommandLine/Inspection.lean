import Asm24.Assembly.Program

/-!
# Inspection

The labels and allocations of a program, pretty-printed as nested values: labels
sorted by name with their addresses in a column, then the allocations in order,
one field on a line.
-/

namespace Asm24.CommandLine

open Asm24.Machine
open Asm24.Assembly

/-- A brace that opens a group. -/
def openBrace : String := "\x7b"

/-- A brace that closes a group. -/
def closeBrace : String := "\x7d"

/-- The line of a label, with its address after the column of the labels. -/
def inspectSymbol (width : Nat) (entry : String × Address) : String :=
  let key := Text.quote entry.1 ++ ":"
  "    " ++ String.ofList (key.toList.rightpad width ' ') ++ " " ++
    toString entry.2.toNat ++ ",\n"

/-- The labels, sorted by name. -/
def inspectSymbols (symbols : SymbolTable) : String :=
  if symbols.entries.isEmpty then
    "  Symbols:     map[string]uint32" ++ openBrace ++ closeBrace ++ ",\n"
  else
    let sorted := symbols.entries.mergeSort (fun left right => left.1 ≤ right.1)
    let width :=
      (sorted.map (fun entry => (Text.quote entry.1).length + 1)).foldl max 0
    "  Symbols: map[string]uint32" ++ openBrace ++ "\n" ++
      String.join (sorted.map (inspectSymbol width)) ++
      "  " ++ closeBrace ++ ",\n"

/-- The lines of an allocation. -/
def inspectAllocation (allocation : Allocation) : String :=
  "    asm.Allocation" ++ openBrace ++ "\n" ++
    "      Offset: " ++ toString allocation.offset.toNat ++ ",\n" ++
    "      Size:   " ++ toString allocation.size.toNat ++ ",\n" ++
    "      Value:  " ++ toString allocation.value ++ ",\n" ++
    "      Line:   " ++ toString allocation.line ++ ",\n" ++
    "    " ++ closeBrace ++ ",\n"

/-- The allocations, in order. -/
def inspectAllocations (allocations : List Allocation) : String :=
  if allocations.isEmpty then
    "  Allocations: []asm.Allocation(nil),\n"
  else
    "  Allocations: []asm.Allocation" ++ openBrace ++ "\n" ++
      String.join (allocations.map inspectAllocation) ++
      "  " ++ closeBrace ++ ",\n"

/-- The labels and allocations of a program. -/
def inspect (program : Program) : String :=
  "struct " ++ openBrace ++
    " Symbols map[string]uint32; Allocations []asm.Allocation " ++
    closeBrace ++ openBrace ++ "\n" ++
    inspectSymbols program.symbols ++ inspectAllocations program.allocations ++
    closeBrace ++ "\n"

end Asm24.CommandLine
