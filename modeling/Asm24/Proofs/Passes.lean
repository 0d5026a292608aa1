import Asm24.Assembly.Program
import Asm24.Proofs.Block
import Asm24.Proofs.Directive
import Asm24.Proofs.Layout

/-!
# The two reading passes

Reading a block of data or code succeeds exactly if each line that holds code
can be read, the words that the lines take fit in the region, and no label is
declared twice.  The result is then given by the layout of the block: the labels
of the block with their places extend the symbol table, and each line that holds
code yields an allocation or a statement at its place.

The counters of the passes are 32-bit numbers.  They stay within the capacities
of the regions, so their sums never wrap around.
-/

namespace Asm24.Assembly

open Asm24.Machine
open Asm24.Proofs

/-! ## Passes over a block -/

/-- What the lines of a block yield from a place on. -/
def yields {item : Type} (size : Line → Nat) (item? : Nat → Line → Option item)
    (place : Nat) (lines : List Line) : List item :=
  (placed size place lines).filterMap (fun entry => item? entry.1 entry.2)

/--
A pass reads a block line by line.  A label is bound to the base of the region
plus the words taken so far.  A line of code that can be read yields an item and
takes its words, which must not exceed the capacity of the region.
-/
structure IsPass {item : Type} (base capacity : Nat) (size : Line → Nat)
    (reads : Line → Prop) (item? : Nat → Line → Option item)
    (pass : SymbolTable → Nat → List Line →
      Except Failure (SymbolTable × List item)) : Prop where
  size_eq_zero : ∀ {line}, line.isCode = false → size line = 0
  item?_eq_none : ∀ {line}, line.isCode = false → ∀ used, item? used line = none
  exists_item_iff : ∀ {line}, line.isCode = true → ∀ used,
    (∃ found, item? used line = some found) ↔ reads line
  nil : ∀ symbols used, pass symbols used [] = .ok (symbols, [])
  label : ∀ {line name}, line.content = .label name →
    ∀ symbols used rest result,
    pass symbols used (line :: rest) = .ok result ↔
      name ∉ symbols.names ∧ pass (symbols.extend [(name, base + used)]) used
        rest = .ok result
  inert : ∀ {line}, line.content = .inert → ∀ symbols used rest,
    pass symbols used (line :: rest) = pass symbols used rest
  code : ∀ {line}, line.content = .code line.tokens → line.isCode = true →
    ∀ symbols used rest final read, used ≤ capacity →
      (pass symbols used (line :: rest) = .ok (final, read) ↔
        ∃ found others, item? used line = some found ∧
          used + size line ≤ capacity ∧
          pass symbols (used + size line) rest = .ok (final, others) ∧
          found :: others = read)

theorem declared_cons_of_label {line : Line} {name : String}
    (label : line.label? = some name) (rest : List Line) :
    declared (line :: rest) = name :: declared rest := by
  simp [declared, label]

theorem declared_cons_of_no_label {line : Line} (noLabel : line.label? = none)
    (rest : List Line) : declared (line :: rest) = declared rest := by
  simp [declared, noLabel]

section Pass

variable {item : Type} {base capacity : Nat} {size : Line → Nat}
  {reads : Line → Prop} {item? : Nat → Line → Option item}
  {pass : SymbolTable → Nat → List Line →
    Except Failure (SymbolTable × List item)}

theorem yields_cons_of_some {line : Line} {place : Nat} {found : item}
    (yielded : item? place line = some found) (rest : List Line) :
    yields size item? place (line :: rest) =
      found :: yields size item? (place + size line) rest := by
  simp [yields, placed, yielded]

theorem yields_cons_of_none {line : Line} {place : Nat}
    (nothing : item? place line = none) (free : size line = 0)
    (rest : List Line) :
    yields size item? place (line :: rest) = yields size item? place rest := by
  simp [yields, placed, nothing, free]

/--
Lines that change in place and take the same words yield what the changed lines
do.
-/
theorem yields_map {other : Type} {other? : Nat → Line → Option other}
    {change : Line → Line} {convert : item → other} {lines : List Line}
    (sizes : ∀ line ∈ lines, size (change line) = size line)
    (items : ∀ line ∈ lines, ∀ place,
      other? place (change line) = (item? place line).map convert)
    (place : Nat) :
    yields size other? place (lines.map change) =
      (yields size item? place lines).map convert := by
  rw [yields, placed_map sizes, List.filterMap_map, yields, List.map_filterMap]
  apply List.filterMap_congr
  intro entry member
  exact items entry.2 (mem_of_mem_placed size member) entry.1

variable (isPass : IsPass base capacity size reads item? pass)

include isPass

theorem IsPass.yields_cons_of_not_code {line : Line}
    (noCode : line.isCode = false) (place : Nat) (rest : List Line) :
    yields size item? place (line :: rest) = yields size item? place rest :=
  yields_cons_of_none (isPass.item?_eq_none noCode place)
    (isPass.size_eq_zero noCode) rest

/-- A pass yields one item for each line that holds code, in their order. -/
theorem IsPass.forall₂_yields {lines : List Line}
    (readable : ∀ line ∈ lines, line.isCode = true → reads line) (place : Nat) :
    List.Forall₂ (fun line found => ∃ place, item? place line = some found)
      (codeLines lines) (yields size item? place lines) := by
  induction lines generalizing place with
  | nil => exact .nil
  | cons line rest ih =>
      rcases List.forall_mem_cons.mp readable with ⟨first, others⟩
      cases code : line.isCode with
      | false =>
          rw [isPass.yields_cons_of_not_code code, codeLines,
            List.filter_cons_of_neg (by simp [code])]
          exact ih others place
      | true =>
          rcases (isPass.exists_item_iff code place).mpr (first code) with
            ⟨found, yielded⟩
          rw [yields_cons_of_some yielded, codeLines,
            List.filter_cons_of_pos code]
          exact .cons ⟨place, yielded⟩ (ih others (place + size line))

/--
A pass succeeds exactly if every line of code can be read, the words fit in the
region, and no label is declared twice.  The symbols and items are then those of
the layout.  The table and the words taken so far change from line to line, so
both vary in the induction.
-/
theorem IsPass.eq_ok_iff {symbols final : SymbolTable} {used : Nat}
    {lines : List Line} {read : List item} (bounded : used ≤ capacity)
    (distinct : symbols.names.Nodup) :
    pass symbols used lines = .ok (final, read) ↔
      (∀ line ∈ lines, line.isCode = true → reads line) ∧
        used + totalSize size lines ≤ capacity ∧
        (symbols.names ++ declared lines).Nodup ∧
        symbols.extend (declarations size (base + used) lines) = final ∧
        yields size item? used lines = read := by
  induction lines generalizing symbols used final read with
  | nil => simp [isPass.nil, bounded, declared, distinct, yields, placed]
  | cons line rest ih =>
      rw [List.forall_mem_cons, totalSize_cons]
      rcases line.content_cases with
        ⟨name, content, label, noCode⟩ | ⟨content, noLabel, noCode⟩ |
        ⟨content, noLabel, code⟩
      · rw [isPass.label content, isPass.size_eq_zero noCode, Nat.zero_add,
          declared_cons_of_label label, declarations_cons_of_label _ label,
          isPass.size_eq_zero noCode, Nat.add_zero,
          isPass.yields_cons_of_not_code noCode]
        by_cases known : name ∈ symbols.names
        · simp [known, SymbolTable.not_nodup_of_known known]
        · have extended :=
            SymbolTable.nodup_names_extend distinct known (base + used)
          rw [ih bounded extended, SymbolTable.names_extend,
            SymbolTable.extend_append, List.append_assoc]
          simp [known, noCode]
      · rw [isPass.inert content, ih bounded distinct,
          isPass.size_eq_zero noCode, Nat.zero_add,
          declared_cons_of_no_label noLabel,
          declarations_cons_of_no_label _ noLabel, isPass.size_eq_zero noCode,
          Nat.add_zero, isPass.yields_cons_of_not_code noCode]
        simp [noCode]
      · rw [isPass.code content code symbols used rest final read bounded,
          declared_cons_of_no_label noLabel,
          declarations_cons_of_no_label _ noLabel]
        constructor
        · rintro ⟨found, others, yielded, room, inner, rfl⟩
          obtain ⟨every, total, names, sameSymbols, sameOthers⟩ :=
            (ih room distinct).mp inner
          have readable :=
            (isPass.exists_item_iff code used).mp ⟨found, yielded⟩
          refine ⟨⟨fun _ => readable, every⟩, by omega, names, ?_, ?_⟩
          · rw [← sameSymbols, Nat.add_assoc]
          · rw [yields_cons_of_some yielded, sameOthers]
        · rintro ⟨⟨readable, every⟩, total, names, rfl, rfl⟩
          obtain ⟨found, yielded⟩ :=
            (isPass.exists_item_iff code used).mpr (readable code)
          refine ⟨found, yields size item? (used + size line) rest, yielded,
            by omega, ?_, ?_⟩
          · rw [ih (by omega) distinct]
            exact ⟨every, by omega, names, by rw [Nat.add_assoc], rfl⟩
          · rw [yields_cons_of_some yielded]

end Pass

/-! ## Data -/

/-- The words that a line of data takes. -/
def dataSize (line : Line) : Nat :=
  if line.isCode then
    match Allocation.read line.tokens 0 with
    | .ok allocation => allocation.size.toNat
    | .error _ => 0
  else
    0

/--
A line of data can be read if it holds no code or its words write an allocation.
-/
def IsData (line : Line) : Prop :=
  line.isCode = true → ∃ allocation,
    Allocation.read line.tokens 0 = .ok allocation

/-- The allocation that a line writes at an offset. -/
def allocationAt? (offset : Nat) (line : Line) : Option Allocation :=
  if line.isCode then
    match Allocation.read line.tokens (UInt32.ofNat offset) with
    | .ok allocation => some { allocation with line := line.number }
    | .error _ => none
  else
    none

theorem readOnly_base_add (offset : Nat) :
    Region.readOnly.base + UInt32.ofNat offset =
      UInt32.ofNat (0x400 + offset) := by
  rw [UInt32.ofNat_add]
  rfl

theorem dataSize_eq_zero {line : Line} (noCode : line.isCode = false) :
    dataSize line = 0 := by
  simp [dataSize, noCode]

theorem allocationAt?_eq_some_iff {line : Line} (code : line.isCode = true)
    (offset : Nat) (found : Allocation) :
    allocationAt? offset line = some found ↔
      ∃ allocation, Allocation.read line.tokens (UInt32.ofNat offset) =
        .ok allocation ∧
        { allocation with line := line.number } = found := by
  rw [allocationAt?, if_pos code]
  cases Allocation.read line.tokens (UInt32.ofNat offset) <;> simp

/-- Whether a line writes an allocation does not depend on the offset. -/
theorem exists_allocationAt?_iff {line : Line} (code : line.isCode = true)
    (offset : Nat) :
    (∃ found, allocationAt? offset line = some found) ↔
      ∃ allocation, Allocation.read line.tokens 0 = .ok allocation := by
  simp only [allocationAt?_eq_some_iff code, Allocation.read_iff_directive]
  constructor
  · rintro ⟨_, _, ⟨size, value, directive, rfl⟩, -⟩
    exact ⟨_, size, value, directive, rfl⟩
  · rintro ⟨_, size, value, directive, rfl⟩
    exact ⟨_, _, ⟨size, value, directive, rfl⟩, rfl⟩

/-- A line that writes an allocation takes the words of that allocation. -/
theorem dataSize_of_read {line : Line} {offset : UInt32}
    {allocation : Allocation} (code : line.isCode = true)
    (written : Allocation.read line.tokens offset = .ok allocation) :
    dataSize line = allocation.size.toNat := by
  rcases Allocation.read_iff_directive.mp written with
    ⟨size, value, directive, rfl⟩
  have atZero :
      Allocation.read line.tokens 0 = .ok ⟨0, UInt32.ofNat size, value, 0⟩ :=
    Allocation.read_iff_directive.mpr ⟨size, value, directive, rfl⟩
  rw [dataSize, if_pos code, atZero]

theorem readData_label {source : String} {symbols : SymbolTable} {used : Nat}
    {line : Line} {rest : List Line} {name : String}
    (content : line.content = .label name)
    {result : SymbolTable × List Allocation} :
    readData source symbols (UInt32.ofNat used) (line :: rest) = .ok result ↔
      name ∉ symbols.names ∧
        readData source (symbols.extend [(name, 0x400 + used)])
          (UInt32.ofNat used) rest = .ok result := by
  simp only [readData, content, readOnly_base_add, bind_eq_ok_iff,
    locate_eq_ok_iff, SymbolTable.define_eq_ok_iff]
  constructor
  · rintro ⟨_, ⟨fresh, rfl⟩, inner⟩
    exact ⟨fresh, inner⟩
  · rintro ⟨fresh, inner⟩
    exact ⟨_, ⟨fresh, rfl⟩, inner⟩

theorem readData_code {source : String} {symbols final : SymbolTable}
    {used : Nat} {line : Line} {rest : List Line} {read : List Allocation}
    (content : line.content = .code line.tokens) (bounded : used ≤ 0x1FF) :
    readData source symbols (UInt32.ofNat used) (line :: rest) =
      .ok (final, read) ↔
      ∃ allocation others,
        Allocation.read line.tokens (UInt32.ofNat used) = .ok allocation ∧
          used + allocation.size.toNat ≤ 0x1FF ∧
          readData source symbols (UInt32.ofNat (used + allocation.size.toNat))
            rest = .ok (final, others) ∧
          { allocation with line := line.number } :: others = read := by
  have fits {allocation : Allocation}
      (written : Allocation.read line.tokens (UInt32.ofNat used) =
        .ok allocation) :
      ¬ Region.readOnly.size < UInt32.ofNat used + allocation.size ↔
        used + allocation.size.toNat ≤ 0x1FF := by
    have small := (Allocation.read_bounds written).2
    have capacity : Region.readOnly.size.toNat = 0x1FF := rfl
    rw [UInt32.lt_iff_toNat_lt, UInt32.toNat_add, UInt32.toNat_ofNat', capacity]
    omega
  have advance (allocation : Allocation) :
      UInt32.ofNat used + allocation.size =
        UInt32.ofNat (used + allocation.size.toNat) := by
    rw [UInt32.ofNat_add, UInt32.ofNat_toNat]
  simp only [readData, content, bind_eq_ok_iff, locate_eq_ok_iff,
    guard_eq_ok_iff, pure_eq_ok_iff, Prod.exists, Prod.mk.injEq, advance]
  constructor
  · rintro ⟨allocation, written, room, innerSymbols, others, inner, rfl, same⟩
    rw [← advance, fits written] at room
    exact ⟨allocation, others, written, room, inner, same⟩
  · rintro ⟨allocation, others, written, room, inner, same⟩
    rw [← fits written, advance] at room
    exact ⟨allocation, written, room, final, others, inner, rfl, same⟩

/-- Reading data is a pass over its block. -/
theorem isPass_readData (source : String) :
    IsPass 0x400 0x1FF dataSize
      (fun line => ∃ allocation, Allocation.read line.tokens 0 = .ok allocation)
      allocationAt? (fun symbols used =>
        readData source symbols (UInt32.ofNat used)) where
  size_eq_zero := dataSize_eq_zero
  item?_eq_none noCode used := by simp [allocationAt?, noCode]
  exists_item_iff := exists_allocationAt?_iff
  nil _ _ := rfl
  label content _ _ _ _ := readData_label content
  inert content _ _ _ := by simp only [readData, content]
  code {line} content code symbols used rest final read bounded := by
    rw [readData_code content bounded]
    constructor
    · rintro ⟨allocation, others, written, room, inner, same⟩
      rw [← dataSize_of_read code written] at room inner
      exact ⟨_, others, (allocationAt?_eq_some_iff code used _).mpr ⟨allocation,
        written, rfl⟩, room, inner, same⟩
    · rintro ⟨found, others, yielded, room, inner, same⟩
      obtain ⟨allocation, written, rfl⟩ :=
        (allocationAt?_eq_some_iff code used found).mp yielded
      rw [dataSize_of_read code written] at room inner
      exact ⟨allocation, others, written, room, inner, same⟩

/-! ## Code -/

/-- The words that a line of code takes. -/
def codeSize (line : Line) : Nat :=
  if line.isCode then 1 else 0

/--
A line of code can be read if it holds none or its words write an instruction.
-/
def IsOperation (line : Line) : Prop :=
  line.isCode = true → ∃ instruction,
    readStatement line.tokens = .ok instruction

/-- The statement that a line writes after a number of instructions. -/
def statementAt? (count : Nat) (line : Line) : Option Statement :=
  if line.isCode then
    match readStatement line.tokens with
    | .ok instruction => some ⟨UInt32.ofNat (0x600 + count), line, instruction⟩
    | .error _ => none
  else
    none

theorem instruction_base_add (count : Nat) :
    Region.instruction.base + UInt32.ofNat count =
      UInt32.ofNat (0x600 + count) := by
  rw [UInt32.ofNat_add]
  rfl

theorem codeSize_eq_zero {line : Line} (noCode : line.isCode = false) :
    codeSize line = 0 := by
  simp [codeSize, noCode]

theorem codeSize_eq_one {line : Line} (code : line.isCode = true) :
    codeSize line = 1 := by
  simp [codeSize, code]

theorem statementAt?_eq_none {line : Line} (noCode : line.isCode = false)
    (count : Nat) :
    statementAt? count line = none := by
  simp [statementAt?, noCode]

theorem statementAt?_eq_some_iff {line : Line} (code : line.isCode = true)
    (count : Nat) (statement : Statement) :
    statementAt? count line = some statement ↔
      ∃ instruction, readStatement line.tokens = .ok instruction ∧
        ⟨UInt32.ofNat (0x600 + count), line, instruction⟩ = statement := by
  rw [statementAt?, if_pos code]
  cases readStatement line.tokens <;> simp

theorem readCode_label {source : String} {symbols : SymbolTable} {count : Nat}
    {line : Line} {rest : List Line} {name : String}
    (content : line.content = .label name)
    {result : SymbolTable × List Statement} :
    readCode source symbols (UInt32.ofNat count) (line :: rest) = .ok result ↔
      name ∉ symbols.names ∧
        readCode source (symbols.extend [(name, 0x600 + count)])
          (UInt32.ofNat count) rest = .ok result := by
  simp only [readCode, content, instruction_base_add, bind_eq_ok_iff,
    locate_eq_ok_iff, SymbolTable.define_eq_ok_iff]
  constructor
  · rintro ⟨_, ⟨fresh, rfl⟩, inner⟩
    exact ⟨fresh, inner⟩
  · rintro ⟨fresh, inner⟩
    exact ⟨_, ⟨fresh, rfl⟩, inner⟩

theorem readCode_code {source : String} {symbols final : SymbolTable}
    {count : Nat} {line : Line} {rest : List Line} {read : List Statement}
    (content : line.content = .code line.tokens) (bounded : count ≤ 0x9FF) :
    readCode source symbols (UInt32.ofNat count) (line :: rest) =
      .ok (final, read) ↔
      ∃ instruction others,
        readStatement line.tokens = .ok instruction ∧ count + 1 ≤ 0x9FF ∧
          readCode source symbols (UInt32.ofNat (count + 1)) rest =
            .ok (final, others) ∧
          ⟨UInt32.ofNat (0x600 + count), line, instruction⟩ :: others =
            read := by
  have room : ¬ Region.instruction.size ≤ UInt32.ofNat count ↔
      count + 1 ≤ 0x9FF := by
    have capacity : Region.instruction.size.toNat = 0x9FF := rfl
    rw [UInt32.le_iff_toNat_le, UInt32.toNat_ofNat', capacity]
    omega
  have advance : UInt32.ofNat count + 1 = UInt32.ofNat (count + 1) := by
    rw [UInt32.ofNat_add]
    rfl
  simp only [readCode, content, instruction_base_add, bind_eq_ok_iff,
    locate_eq_ok_iff, guard_eq_ok_iff, pure_eq_ok_iff, Prod.exists,
    Prod.mk.injEq, room, advance]
  constructor
  · rintro ⟨instruction, written, fits, innerSymbols, others, inner, rfl, same⟩
    exact ⟨instruction, others, written, fits, inner, same⟩
  · rintro ⟨instruction, others, written, fits, inner, same⟩
    exact ⟨instruction, written, fits, final, others, inner, rfl, same⟩

/-- Reading code is a pass over its block. -/
theorem isPass_readCode (source : String) :
    IsPass 0x600 0x9FF codeSize
      (fun line => ∃ instruction, readStatement line.tokens = .ok instruction)
      statementAt? (fun symbols count =>
        readCode source symbols (UInt32.ofNat count)) where
  size_eq_zero := codeSize_eq_zero
  item?_eq_none := statementAt?_eq_none
  exists_item_iff {line} code count := by simp [statementAt?_eq_some_iff code]
  nil _ _ := rfl
  label content _ _ _ _ := readCode_label content
  inert content _ _ _ := by simp only [readCode, content]
  code {line} content code symbols count rest final read bounded := by
    rw [readCode_code content bounded, codeSize_eq_one code]
    constructor
    · rintro ⟨instruction, others, written, room, inner, same⟩
      exact ⟨_, others, (statementAt?_eq_some_iff code count _).mpr
        ⟨instruction, written, rfl⟩, room, inner, same⟩
    · rintro ⟨found, others, yielded, room, inner, same⟩
      obtain ⟨instruction, written, rfl⟩ :=
        (statementAt?_eq_some_iff code count found).mp yielded
      exact ⟨instruction, others, written, room, inner, same⟩

end Asm24.Assembly
