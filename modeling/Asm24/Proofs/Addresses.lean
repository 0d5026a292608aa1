import Asm24.Proofs.Program

/-!
# Addresses that never wrap

The reading passes count words and form addresses in 32 bits.  A block that is
read fits in its region, so each sum that a pass forms is the sum of the same
numbers without a bound: the address of a label, the offset and the end of an
allocation, and the address of a statement.

These bounds leave nothing for encoding to refuse.  A label of a full block of
code has the address `0xFFF`, which is the greatest number that an instruction
can hold.  `encode_of_linkAll` says that once the lines are read and linked
there is a program.
-/

namespace Asm24.Assembly

open Asm24.Machine
open Asm24.Proofs

/-! ## Labels -/

theorem bounds_of_mem_declarations {size : Line → Nat} {start place : Nat}
    {name : String} {lines : List Line}
    (member : (name, place) ∈ declarations size start lines) :
    name ∈ declared lines ∧ start ≤ place ∧
      place ≤ start + totalSize size lines := by
  constructor
  · rw [← map_fst_declarations size start lines]
    exact List.mem_map_of_mem member
  · rcases (mem_declarations_iff size).mp member with
      ⟨before, line, after, rfl, -, rfl⟩
    rw [totalSize_append]
    omega

/-- Addresses in range survive as 32-bit numbers. -/
theorem map_toNat_extend {table : SymbolTable} {labels : List (String × Nat)}
    (small : ∀ label ∈ labels, label.2 < 2 ^ 32) :
    (table.extend labels).entries.map (Prod.map id UInt32.toNat) =
      table.entries.map (Prod.map id UInt32.toNat) ++ labels := by
  have each : ∀ label ∈ labels,
      (Prod.map id UInt32.toNat ∘ Prod.map id UInt32.ofNat) label = label := by
    rintro ⟨name, place⟩ member
    have bound : place < 2 ^ 32 := small _ member
    change (name, (UInt32.ofNat place).toNat) = (name, place)
    rw [UInt32.toNat_ofNat_of_lt' bound]
  rw [SymbolTable.extend, List.map_append, List.map_map,
    List.map_congr_left each, List.map_id']

section LaidOut

variable {data code : List Line} (laidOut : LaidOut data code)

include laidOut

/-- The table of two blocks in numbers without a bound. -/
theorem map_toNat_symbolTable :
    (symbolTable data code).entries.map (Prod.map id UInt32.toNat) =
      declarations dataSize 0x400 data ++ declarations codeSize 0x600 code := by
  rcases laidOut with ⟨dataFits, codeFits, -⟩
  rw [← totalSize_codeSize] at codeFits
  rw [symbolTable, map_toNat_extend, map_toNat_extend]
  · rfl
  · rintro ⟨name, place⟩ member
    have bounds := (bounds_of_mem_declarations member).2
    change place < 2 ^ 32
    omega
  · rintro ⟨name, place⟩ member
    have bounds := (bounds_of_mem_declarations member).2
    change place < 2 ^ 32
    omega

/--
A label lies in the region of the block that declares it, or just behind it.
-/
theorem bounds_of_mem_symbolTable {name : String} {address : Address}
    (member : (name, address) ∈ (symbolTable data code).entries) :
    (name ∈ declared data ∧ 0x400 ≤ address.toNat ∧ address.toNat ≤ 0x5FF) ∨
      (name ∈ declared code ∧ 0x600 ≤ address.toNat ∧
        address.toNat ≤ 0xFFF) := by
  have place := List.mem_map_of_mem (f := Prod.map id UInt32.toNat) member
  rw [map_toNat_symbolTable laidOut, List.mem_append] at place
  rcases laidOut with ⟨dataFits, codeFits, -⟩
  rw [← totalSize_codeSize] at codeFits
  rcases place with inData | inCode
  · rcases bounds_of_mem_declarations inData with ⟨named, low, high⟩
    exact Or.inl ⟨named, low, by omega⟩
  · rcases bounds_of_mem_declarations inCode with ⟨named, low, high⟩
    exact Or.inr ⟨named, low, by omega⟩

end LaidOut

/-! ## Allocations -/

/--
Allocations that follow one another from an offset on and end within the region.
The offsets are running sums of natural numbers.
-/
def Packed : (start : Nat) → List Allocation → Prop
  | start, [] => start ≤ 0x1FF
  | start, allocation :: rest =>
      allocation.offset.toNat = start ∧
        allocation.address.toNat = 0x400 + start ∧
        Packed (start + allocation.size.toNat) rest

/-- Reading allocations packs them. -/
theorem packed_yields {lines : List Line}
    (allocates : ∀ line ∈ lines, IsData line) {start : Nat}
    (fits : start + totalSize dataSize lines ≤ 0x1FF) :
    Packed start (yields dataSize allocationAt? start lines) := by
  induction lines generalizing start with
  | nil => exact fits
  | cons line rest ih =>
      rcases List.forall_mem_cons.mp allocates with ⟨isData, others⟩
      rw [totalSize_cons] at fits
      cases code : line.isCode with
      | false =>
          have nothing : allocationAt? start line = none := by
            simp [allocationAt?, code]
          rw [dataSize_eq_zero code, Nat.zero_add] at fits
          rw [yields_cons_of_none nothing (dataSize_eq_zero code)]
          exact ih others fits
      | true =>
          have readable :=
            (exists_allocationAt?_iff code start).mpr (isData code)
          rcases readable with ⟨found, yielded⟩
          rcases (allocationAt?_eq_some_iff code start found).mp yielded with
            ⟨allocation, written, rfl⟩
          have offset := Allocation.offset_of_read written
          have size := dataSize_of_read code written
          rw [yields_cons_of_some yielded]
          refine ⟨?_, ?_, ?_⟩
          · change allocation.offset.toNat = start
            rw [offset, UInt32.toNat_ofNat']
            omega
          · change (Region.readOnly.base + allocation.offset).toNat =
              0x400 + start
            rw [offset, readOnly_base_add, UInt32.toNat_ofNat']
            omega
          · rw [size] at fits ⊢
            apply ih others
            change start + allocation.size.toNat + totalSize dataSize rest ≤
              0x1FF
            omega

/-! ## Statements -/

theorem address_of_statements {code : List Line}
    (operates : ∀ line ∈ code, IsOperation line)
    (fits : (codeLines code).length ≤ 0x9FF) {index : Nat}
    {statement : Statement}
    (found : (statements code)[index]? = some statement) :
    statement.address.toNat = 0x600 + index := by
  have inside := (List.getElem?_eq_some_iff.mp found).1
  rw [length_statements operates] at inside
  rcases getElem?_statements operates (List.getElem?_eq_getElem inside) with
    ⟨instruction, -, there⟩
  rw [there] at found
  cases found
  rw [UInt32.toNat_ofNat']
  omega

/--
A written instruction without a label holds a value in range in its number slot.
-/
theorem Written.exists_value {instruction : Instruction}
    (written : Written instruction)
    (linked : ∀ label, ¬ RefersTo instruction label)
    (shape : instruction.shape = .immediate) :
    ∃ value, instruction.immediate = .ofValue value ∧ -2048 ≤ value ∧
      value ≤ 4095 := by
  cases written with
  | registers => cases shape
  | number supported count fits isNumber =>
      rcases isNumber with ⟨label, reference, rfl⟩ | ⟨value, low, high, rfl⟩
      · exact absurd ⟨reference.ne_empty, rfl⟩ (linked label)
      · exact ⟨value, rfl, low, high⟩

/-! ## Encoding after linking -/

/--
Every sum that the reading passes form, in numbers without a bound.  The 32-bit
sums are the addresses of the labels, the offsets, ends and addresses of the
allocations, and the addresses of the statements.
-/
structure Unwrapped (data code : List Line) (symbols : SymbolTable)
    (allocations : List Allocation) (statements : List Statement) : Prop where
  labels : symbols.entries.map (Prod.map id UInt32.toNat) =
    declarations dataSize 0x400 data ++ declarations codeSize 0x600 code
  offsets : Packed 0 allocations
  addresses : ∀ index statement, statements[index]? = some statement →
    statement.address.toNat = 0x600 + index
  capacity : statements.length ≤ 0x9FF

/--
Lines that are read and linked have a program.  Their labels lie in the regions,
the numbers of their linked instructions are in range, and the word of each
instruction decodes to the instruction again, so neither refusal of encoding is
ever made; and no sum of the passes wraps around.
-/
theorem encode_of_linkAll {source : String} {lines : List Line}
    {sections : Sections} {dataSymbols symbols : SymbolTable}
    {allocated : List Allocation} {read linked : List Statement}
    (sectioned : Sections.ofLines source lines = .ok sections)
    (readsData : readData source .empty 0 (sections.body .readOnly) =
      .ok (dataSymbols, allocated))
    (readsCode : readCode source dataSymbols 0 (sections.body .instruction) =
      .ok (symbols, read))
    (links : Statement.linkAll source symbols read = (linked, none)) :
    (∀ name address, (name, address) ∈ symbols.entries →
      (name ∈ declared (sections.body .readOnly) ∧
        0x400 ≤ address.toNat ∧ address.toNat ≤ 0x5FF) ∨
      (name ∈ declared (sections.body .instruction) ∧
        0x600 ≤ address.toNat ∧ address.toNat ≤ 0xFFF)) ∧
    (∀ statement ∈ linked, statement.instruction.shape = .immediate →
      ∃ value, statement.instruction.immediate = .ofValue value ∧
        -2048 ≤ value ∧ value ≤ 4095) ∧
    (∀ statement ∈ linked, ∃ word, statement.instruction.encode = .ok word ∧
      Instruction.decode word = .ok statement.instruction.materialized) ∧
    (∃ words, linked.mapM (Statement.encode source) = .ok words ∧
      assembleLines source lines =
        .ok ⟨source, sections, symbols, allocated, linked, words⟩) ∧
    Unwrapped (sections.body .readOnly) (sections.body .instruction) symbols
      allocated read := by
  have dataIs := Sections.body_ofLines sectioned .readOnly
  have codeIs := Sections.body_ofLines sectioned .instruction
  rcases passes_eq_ok_iff.mp ⟨readsData, readsCode⟩ with
    ⟨laidOut, allocates, operates, rfl, rfl, rfl, rfl⟩
  have done := Statement.linkAll_eq_iff.mp links
  rcases exists_words_of_linked laidOut operates done with ⟨words, encoded⟩
  refine ⟨?_, ?_, ?_, ?_, ?_⟩
  · intro name address member
    exact bounds_of_mem_symbolTable laidOut member
  · intro statement member shape
    rcases written_of_linked laidOut operates done member with
      ⟨written, noLabel⟩
    exact written.exists_value noLabel shape
  · intro statement member
    rcases written_of_linked laidOut operates done member with
      ⟨written, noLabel⟩
    rcases written.exists_encode noLabel with ⟨word, wordOf⟩
    exact ⟨word, wordOf, (Instruction.decode_of_encode wordOf).2⟩
  · refine ⟨words, mapM_eq_ok_iff.mpr encoded, ?_⟩
    apply (assembleLines_eq_ok_iff dataIs codeIs).mpr
    exact ⟨sections, linked, words, sectioned, laidOut, allocates, operates,
      done, encoded, rfl⟩
  · constructor
    · exact map_toNat_symbolTable laidOut
    · apply packed_yields allocates
      rw [Nat.zero_add]
      exact laidOut.dataFits
    · intro index statement found
      exact address_of_statements operates laidOut.codeFits found
    · rw [length_statements operates]
      exact laidOut.codeFits

/-- Branches to a label behind the last of them. -/
def branches (count : Nat) : List Line :=
  List.replicate count ⟨2, "BAL END"⟩ ++ [⟨3, "END:"⟩]

theorem codeLines_branches (count : Nat) :
    codeLines (branches count) = List.replicate count ⟨2, "BAL END"⟩ := by
  have branch : (⟨2, "BAL END"⟩ : Line).isCode = true := by decide
  have label : (⟨3, "END:"⟩ : Line).isCode = false := by decide
  simp [codeLines, branches, branch, label]

theorem declared_branches (count : Nat) :
    declared (branches count) = ["END"] := by
  have branch : (⟨2, "BAL END"⟩ : Line).label? = none := by decide
  have label : (⟨3, "END:"⟩ : Line).label? = some "END" := by decide
  have nothing :
      (List.replicate count (⟨2, "BAL END"⟩ : Line)).filterMap Line.label? =
        [] := by
    rw [List.filterMap_eq_nil_iff]
    intro line member
    rw [List.eq_of_mem_replicate member]
    exact branch
  rw [declared, branches, List.filterMap_append, nothing]
  simp [label]

theorem isHeader_branches (count : Nat) :
    ∀ line ∈ branches count, line.isHeader = false := by
  intro line member
  rcases List.mem_append.mp member with branch | label
  · rw [List.eq_of_mem_replicate branch]
    decide
  · rw [List.mem_singleton.mp label]
    decide

theorem wellFormed_branches {count : Nat} (fits : count ≤ 0x9FF) :
    WellFormed [] (branches count) := by
  have written : readStatement (⟨2, "BAL END"⟩ : Line).tokens =
      .ok (ofNumber .bal .none none (.ofLabel "END")) := by rfl
  refine ⟨⟨Nat.zero_le _, ?_, ?_⟩, by simp, ?_, ?_⟩
  · rw [codeLines_branches, List.length_replicate]
    exact fits
  · rw [declared_branches]
    simp [declared]
  · intro line member code
    rcases List.mem_append.mp member with branch | label
    · rw [List.eq_of_mem_replicate branch]
      exact ⟨_, written⟩
    · rw [List.mem_singleton.mp label] at code
      cases code
  · intro line member instruction label read operand
    rw [codeLines_branches] at member
    rw [List.eq_of_mem_replicate member, written] at read
    cases read
    have named : "END" = label := congrArg Immediate.label operand.2
    rw [declared_branches, ← named]
    simp [declared]

/--
Branches are read and linked as long as they fit, and the label has the address
behind them.
-/
theorem linkAll_branches {count : Nat} (fits : count ≤ 0x9FF)
    (source : String) :
    ∃ sections symbols read linked,
      Sections.ofLines source (⟨1, ".SECTION INSTRUCTION"⟩ :: branches count) =
        .ok sections ∧
      readData source .empty 0 (sections.body .readOnly) = .ok (.empty, []) ∧
      readCode source .empty 0 (sections.body .instruction) =
        .ok (symbols, read) ∧
      Statement.linkAll source symbols read = (linked, none) ∧
      read.length = count ∧ symbols.lookup "END" =
        some (UInt32.ofNat (0x600 + count)) := by
  have opens :
      (⟨1, ".SECTION INSTRUCTION"⟩ : Line).IsHeaderOf .instruction := by decide
  rcases Sections.exists_ofLines_block ⟨_, _, opens, isHeader_branches count⟩
    source with
    ⟨sections, sectioned, bodies⟩
  rcases wellFormed_branches fits with ⟨laidOut, allocates, operates, closed⟩
  rcases (exists_linked_iff operates).mpr closed with ⟨linked, done⟩
  refine ⟨sections, _, _, linked, sectioned, ?_, ?_,
    Statement.linkAll_eq_iff.mpr done, ?_, ?_⟩
  · rw [bodies]
    rfl
  · rw [bodies]
    exact (passes_eq_ok_iff.mpr ⟨laidOut, allocates, operates, rfl, rfl,
      rfl, rfl⟩).2
  · rw [length_statements operates, codeLines_branches, List.length_replicate]
  · rw [lookup_symbolTable_iff laidOut,
      UInt32.toNat_ofNat_of_lt' (by change _ < 2 ^ 32; omega)]
    refine Or.inr ⟨List.replicate count ⟨2, "BAL END"⟩, ⟨3, "END:"⟩, [], rfl,
      by decide, ?_⟩
    rw [codeLines, List.filter_replicate_of_pos (by decide),
      List.length_replicate]

/--
A full block of code: its label has the greatest number that an instruction can
hold.
-/
theorem encode_of_linkAll_branches :
    ∃ sections symbols read linked,
      Sections.ofLines "full.asm"
        (⟨1, ".SECTION INSTRUCTION"⟩ :: branches 0x9FF) = .ok sections ∧
      readData "full.asm" .empty 0 (sections.body .readOnly) =
        .ok (.empty, []) ∧
      readCode "full.asm" .empty 0 (sections.body .instruction) =
        .ok (symbols, read) ∧
      Statement.linkAll "full.asm" symbols read = (linked, none) ∧
      read.length = 0x9FF ∧ symbols.lookup "END" = some 0xFFF ∧
      ∃ words, linked.mapM (Statement.encode "full.asm") = .ok words := by
  rcases linkAll_branches (Nat.le_refl 0x9FF) "full.asm" with
    ⟨sections, symbols, read, linked, sectioned, readsData, readsCode, links,
      length, last⟩
  rcases encode_of_linkAll sectioned readsData readsCode links with
    ⟨-, -, -, ⟨words, encoded, -⟩, -⟩
  exact ⟨sections, symbols, read, linked, sectioned, readsData, readsCode,
    links, length, last, words, encoded⟩

end Asm24.Assembly
