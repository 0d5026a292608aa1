import Asm24.Proofs.Linking
import Asm24.Proofs.Operation
import Asm24.Proofs.Passes

/-!
# Programs and what their lines mean

A list of lines is assembled from the bodies of two blocks only, the last block
of data and the last block of code.  The program is given by the layout of these
bodies: the symbol table holds the labels of both with their places, and there
is one statement and one word for each line of code.

`exists_assembleLines_iff` says exactly which lists of lines are assembled.
`meaning_of_assembleLines` says what the words are: each is the word of the
instruction that its line writes, in which a label is replaced by the place at
which it is declared.
-/

namespace Asm24.Assembly

open Asm24.Machine
open Asm24.Proofs

/-! ## The symbol table of two blocks -/

/--
The labels of a block of data and of a block of code with their addresses.
-/
def symbolTable (data code : List Line) : SymbolTable :=
  (SymbolTable.empty.extend (declarations dataSize 0x400 data)).extend
    (declarations codeSize 0x600 code)

@[simp]
theorem names_symbolTable (data code : List Line) :
    (symbolTable data code).names = declared data ++ declared code := by
  simp [symbolTable, map_fst_declarations]

/-- A label is declared in one of two blocks at an address. -/
def DeclaredAt (data code : List Line) (label : String) (address : Nat) :
    Prop :=
  (∃ before line after, data = before ++ line :: after ∧
    line.label? = some label ∧
    address = 0x400 + totalSize dataSize before) ∨
  (∃ before line after, code = before ++ line :: after ∧
    line.label? = some label ∧
    address = 0x600 + (codeLines before).length)

theorem totalSize_codeSize (lines : List Line) :
    totalSize codeSize lines = (codeLines lines).length := by
  induction lines with
  | nil => rfl
  | cons line rest ih =>
      rw [totalSize_cons, ih]
      cases code : line.isCode with
      | false => simp [codeSize, codeLines, code]
      | true =>
          simp [codeSize, codeLines, code]
          omega

theorem declaredAt_iff_mem {data code : List Line} {label : String}
    {address : Nat} :
    DeclaredAt data code label address ↔
      (label, address) ∈ declarations dataSize 0x400 data ++
        declarations codeSize 0x600 code := by
  simp only [DeclaredAt, List.mem_append, mem_declarations_iff,
    totalSize_codeSize]

/--
Two blocks whose words fit in their regions and whose labels are distinct.
-/
structure LaidOut (data code : List Line) : Prop where
  /-- The allocations fit in their region. -/
  dataFits : totalSize dataSize data ≤ 0x1FF
  /-- The instructions fit in their region. -/
  codeFits : (codeLines code).length ≤ 0x9FF
  /-- No label is declared twice. -/
  distinct : (declared data ++ declared code).Nodup

section LaidOut

variable {data code : List Line} (laidOut : LaidOut data code)

include laidOut

/-- The addresses of labels are in the range of an instruction's number. -/
theorem DeclaredAt.le {label : String} {address : Nat}
    (declaredAt : DeclaredAt data code label address) : address ≤ 0xFFF := by
  obtain ⟨dataFits, codeFits, -⟩ := laidOut
  rcases declaredAt with
    ⟨before, line, after, rfl, -, rfl⟩ | ⟨before, line, after, rfl, -, rfl⟩
  · rw [totalSize_append] at dataFits
    omega
  · rw [← totalSize_codeSize, totalSize_append, totalSize_codeSize] at codeFits
    omega

theorem DeclaredAt.toNat_ofNat {label : String} {address : Nat}
    (declaredAt : DeclaredAt data code label address) :
    (UInt32.ofNat address).toNat = address := by
  have small := declaredAt.le laidOut
  rw [UInt32.toNat_ofNat']
  omega

/-- The symbol table gives each label the address at which it is declared. -/
theorem lookup_symbolTable_iff {label : String} {address : Address} :
    (symbolTable data code).lookup label = some address ↔
      DeclaredAt data code label address.toNat := by
  have distinct := laidOut.distinct
  rw [← names_symbolTable] at distinct
  have entries : (symbolTable data code).entries =
      (declarations dataSize 0x400 data ++ declarations codeSize 0x600 code).map
        (Prod.map id UInt32.ofNat) := by
    simp [symbolTable, SymbolTable.extend, SymbolTable.empty]
  rw [SymbolTable.lookup_eq_some_iff distinct, entries, List.mem_map,
    Prod.exists]
  simp only [← declaredAt_iff_mem, Prod.map_apply, id_eq, Prod.mk.injEq]
  constructor
  · rintro ⟨_, place, declaredAt, rfl, rfl⟩
    rwa [declaredAt.toNat_ofNat laidOut]
  · intro declaredAt
    exact ⟨label, address.toNat, declaredAt, rfl, UInt32.ofNat_toNat⟩

/-- No label is declared at two addresses. -/
theorem DeclaredAt.unique {label : String} {address other : Nat}
    (first : DeclaredAt data code label address)
    (second : DeclaredAt data code label other) :
    address = other := by
  have found {place : Nat} (declaredAt : DeclaredAt data code label place) :
      (symbolTable data code).lookup label = some (UInt32.ofNat place) := by
    rwa [lookup_symbolTable_iff laidOut, declaredAt.toNat_ofNat laidOut]
  have same : UInt32.ofNat address = UInt32.ofNat other :=
    Option.some.inj ((found first).symm.trans (found second))
  rw [← first.toNat_ofNat laidOut, same, second.toNat_ofNat laidOut]

end LaidOut

/-! ## Statements -/

/--
The first instruction becomes the second by replacing a label in the place of
its number by the address at which the label is declared.
-/
inductive Resolved (data code : List Line) :
    Instruction → Instruction → Prop where
  | plain {instruction : Instruction}
      (noLabel : ∀ label, ¬ RefersTo instruction label) :
      Resolved data code instruction instruction
  | label {instruction : Instruction} {label : String} {address : Nat}
      (operand : RefersTo instruction label)
      (declaredAt : DeclaredAt data code label address) :
      Resolved data code instruction { instruction with
        immediate := .ofValue address }

/--
Linking a statement resolves its instruction and keeps its address and line.
-/
theorem resolved_of_link {data code : List Line} (laidOut : LaidOut data code)
    {source : String} {statement linked : Statement}
    (written : Written statement.instruction)
    (done : statement.link source (symbolTable data code) = .ok linked) :
    ∃ resolved, Resolved data code statement.instruction resolved ∧
      linked = ⟨statement.address, statement.line, resolved⟩ := by
  rcases Statement.link_eq_ok_iff.mp done with
    ⟨none, rfl⟩ | ⟨label, address, pending, lookup, rfl⟩
  · refine ⟨statement.instruction, .plain ?_, rfl⟩
    intro label operand
    rw [written.pending?_eq_some_iff.mpr operand] at none
    cases none
  · rw [written.pending?_eq_some_iff] at pending
    rw [lookup_symbolTable_iff laidOut] at lookup
    exact ⟨_, .label pending lookup, rfl⟩

/-- Resolving a written instruction leaves no label. -/
theorem Written.resolved {data code : List Line} (laidOut : LaidOut data code)
    {instruction resolved : Instruction} (written : Written instruction)
    (becomes : Resolved data code instruction resolved) :
    Written resolved ∧ ∀ label, ¬ RefersTo resolved label := by
  cases becomes with
  | plain noLabel => exact ⟨written, noLabel⟩
  | @label label address operand declaredAt =>
      have small := declaredAt.le laidOut
      cases written with
      | registers =>
          have absent := congrArg Immediate.present operand.2
          cases absent
      | number supported count fits isNumber =>
          refine ⟨.number supported count fits
            (Or.inr ⟨address, by omega, by omega, rfl⟩), ?_⟩
          rintro other ⟨nonempty, same⟩
          exact nonempty (congrArg Immediate.label same).symm

/-- The allocations of a block of data. -/
def allocations (data : List Line) : List Allocation :=
  yields dataSize allocationAt? 0 data

/-- The statements of a block of code, before they are linked. -/
def statements (code : List Line) : List Statement :=
  yields codeSize statementAt? 0 code

/-- A block of code yields one statement for each line that holds code. -/
theorem length_yields {start : Nat} {lines : List Line}
    (operations : ∀ line ∈ lines, IsOperation line) :
    (yields codeSize statementAt? start lines).length =
      (codeLines lines).length :=
  ((isPass_readCode "").forall₂_yields operations start).length_eq.symm

/--
The statements are those of the lines of code, in their order and at successive
addresses.  A line of code moves both the start and the index by one, and any
other line moves neither.
-/
theorem getElem?_yields {start index : Nat} {lines : List Line} {line : Line}
    (operations : ∀ line ∈ lines, IsOperation line)
    (found : (codeLines lines)[index]? = some line) :
    ∃ instruction, readStatement line.tokens = .ok instruction ∧
      (yields codeSize statementAt? start lines)[index]? =
        some ⟨UInt32.ofNat (0x600 + (start + index)), line, instruction⟩ := by
  induction lines generalizing start index with
  | nil => simp [codeLines] at found
  | cons head rest ih =>
      obtain ⟨isOperation, others⟩ := List.forall_mem_cons.mp operations
      cases code : head.isCode with
      | false =>
          rw [yields_cons_of_none (statementAt?_eq_none code start)
            (codeSize_eq_zero code)]
          exact ih others (by simpa [codeLines, code] using found)
      | true =>
          obtain ⟨instruction, written⟩ := isOperation code
          have yielded :=
            (statementAt?_eq_some_iff code start _).mpr ⟨instruction,
              written, rfl⟩
          have split : codeLines (head :: rest) = head :: codeLines rest := by
            simp [codeLines, code]
          rw [yields_cons_of_some yielded, codeSize_eq_one code]
          rw [split] at found
          cases index with
          | zero =>
              cases found
              exact ⟨instruction, written, rfl⟩
          | succ index =>
              obtain ⟨other, otherWritten, there⟩ :=
                @ih (start + 1) index others found
              refine ⟨other, otherWritten, ?_⟩
              rw [List.getElem?_cons_succ, there, Nat.add_assoc start,
                Nat.add_comm 1]

theorem length_statements {code : List Line}
    (operates : ∀ line ∈ code, IsOperation line) :
    (statements code).length = (codeLines code).length :=
  length_yields operates

theorem getElem?_statements {code : List Line} {index : Nat} {line : Line}
    (operates : ∀ line ∈ code, IsOperation line)
    (found : (codeLines code)[index]? = some line) :
    ∃ instruction, readStatement line.tokens = .ok instruction ∧
      (statements code)[index]? =
        some ⟨UInt32.ofNat (0x600 + index), line, instruction⟩ := by
  have there := @getElem?_yields 0 index code line operates found
  rwa [Nat.zero_add] at there

/--
Every statement is that of a line of code, read and held to its operation.
-/
theorem of_mem_statements {code : List Line} {statement : Statement}
    (operates : ∀ line ∈ code, IsOperation line)
    (member : statement ∈ statements code) :
    statement.line ∈ codeLines code ∧
      readStatement statement.line.tokens = .ok statement.instruction := by
  obtain ⟨index, found⟩ := List.getElem?_of_mem member
  obtain ⟨inside, -⟩ := List.getElem?_eq_some_iff.mp found
  rw [length_statements operates] at inside
  have there := List.getElem?_eq_getElem inside
  obtain ⟨instruction, written, same⟩ := getElem?_statements operates there
  rw [same] at found
  cases found
  exact ⟨List.mem_of_getElem? there, written⟩

/-! ## Programs -/

/-- A block of data and a block of code from which a program can be made. -/
structure WellFormed (data code : List Line) :
    Prop extends LaidOut data code where
  /--
  Every line of data declares a label, is blank, is a comment, or writes an
  allocation.
  -/
  allocates : ∀ line ∈ data, IsData line
  /--
  Every line of code declares a label, is blank, is a comment, or writes an
  instruction.
  -/
  operates : ∀ line ∈ code, IsOperation line
  /-- Every label in the place of a number is declared. -/
  closed : ∀ line ∈ codeLines code, ∀ instruction label,
    readStatement line.tokens = .ok instruction → RefersTo instruction label →
      label ∈ declared data ++ declared code

theorem refuse_eq_ok_iff {result : Type} {outcome : Except Failure result}
    {value : result} :
    refuse outcome = .ok value ↔ outcome = .ok value := by
  cases outcome <;> simp [refuse]

/-- The two reading passes together yield the layout of the two blocks. -/
theorem passes_eq_ok_iff {source : String} {data code : List Line}
    {symbols final : SymbolTable} {allocated : List Allocation}
    {read : List Statement} :
    (readData source .empty 0 data = .ok (symbols, allocated) ∧
      readCode source symbols 0 code = .ok (final, read)) ↔
      LaidOut data code ∧ (∀ line ∈ data, IsData line) ∧
        (∀ line ∈ code, IsOperation line) ∧
        SymbolTable.empty.extend (declarations dataSize 0x400 data) = symbols ∧
        symbolTable data code = final ∧ allocations data = allocated ∧
        statements code = read := by
  have dataPass := isPass_readData source
  have codePass := isPass_readCode source
  have emptyDistinct : SymbolTable.empty.names.Nodup := List.nodup_nil
  have names :
      (SymbolTable.empty.extend (declarations dataSize 0x400 data)).names =
      declared data := by
    simp [map_fst_declarations]
  change readData source .empty (UInt32.ofNat 0) data = _ ∧
    readCode source symbols (UInt32.ofNat 0) code = _ ↔ _
  rw [dataPass.eq_ok_iff (Nat.zero_le _) emptyDistinct]
  simp only [SymbolTable.names_empty, List.nil_append, Nat.zero_add,
    Nat.add_zero]
  constructor
  · rintro ⟨⟨allocates, dataFits, dataDistinct, rfl, rfl⟩, readLines⟩
    rw [codePass.eq_ok_iff (Nat.zero_le _) (by rwa [names])] at readLines
    obtain ⟨operates, codeFits, distinct, rfl, rfl⟩ := readLines
    rw [names] at distinct
    rw [Nat.zero_add, totalSize_codeSize] at codeFits
    exact ⟨⟨dataFits, codeFits, distinct⟩, allocates, operates, rfl, rfl,
      rfl, rfl⟩
  · rintro ⟨⟨dataFits, codeFits, distinct⟩, allocates, operates, rfl, rfl,
      rfl, rfl⟩
    have dataDistinct := (List.nodup_append.mp distinct).1
    refine ⟨⟨allocates, dataFits, dataDistinct, rfl, rfl⟩, ?_⟩
    rw [codePass.eq_ok_iff (Nat.zero_le _) (by rwa [names]), names,
      Nat.zero_add, totalSize_codeSize]
    exact ⟨operates, codeFits, distinct, rfl, rfl⟩

/--
Assembling succeeds exactly if the lines have sections, the two blocks can be
laid out and read, and all statements can be linked and encoded; the program is
then put together from the results.
-/
theorem assembleLines_eq_ok_iff {source : String} {lines data code : List Line}
    {program : Program} (dataIs : data = lastBody .readOnly lines)
    (codeIs : code = lastBody .instruction lines) :
    assembleLines source lines = .ok program ↔
      ∃ sections linked words,
        Sections.ofLines source lines = .ok sections ∧
        LaidOut data code ∧ (∀ line ∈ data, IsData line) ∧
        (∀ line ∈ code, IsOperation line) ∧
        (statements code).map (Statement.link source (symbolTable data code)) =
          linked.map .ok ∧
        linked.map (Statement.encode source) = words.map .ok ∧
        ⟨source, sections, symbolTable data code, allocations data,
          linked, words⟩ =
          program := by
  subst dataIs codeIs
  simp only [assembleLines, bind_eq_ok_iff, refuse_eq_ok_iff, Prod.exists]
  constructor
  · rintro ⟨sections, read, symbols, allocated, readLines, final, written,
      readOperations, rest⟩
    rw [Sections.body_ofLines read] at readLines readOperations
    obtain ⟨laidOut, allocates, operates, rfl, rfl, rfl, rfl⟩ :=
      passes_eq_ok_iff.mp ⟨readLines, readOperations⟩
    split at rest
    case h_1 => cases rest
    case h_2 linked done =>
      obtain ⟨words, encoded, same⟩ := bind_eq_ok_iff.mp rest
      exact ⟨sections, linked, words, read, laidOut, allocates, operates,
        Statement.linkAll_eq_iff.mp done, mapM_eq_ok_iff.mp encoded,
        pure_eq_ok_iff.mp same⟩
  · rintro ⟨sections, linked, words, read, laidOut, allocates, operates, done,
      encoded, same⟩
    obtain ⟨readLines, readOperations⟩ :=
      (@passes_eq_ok_iff source _ _ _ _ _ _).mpr
        ⟨laidOut, allocates, operates, rfl, rfl, rfl, rfl⟩
    refine ⟨sections, read, _, _, by rwa [Sections.body_ofLines read], _, _,
      by rwa [Sections.body_ofLines read], ?_⟩
    rw [Statement.linkAll_eq_iff.mpr done]
    exact bind_eq_ok_iff.mpr ⟨words, mapM_eq_ok_iff.mpr encoded,
      pure_eq_ok_iff.mpr same⟩

/--
The statements can be linked exactly if every label in the place of a number is
declared.
-/
theorem exists_linked_iff {source : String} {data code : List Line}
    (operates : ∀ line ∈ code, IsOperation line) :
    (∃ linked : List Statement,
      (statements code).map (Statement.link source (symbolTable data code)) =
        linked.map .ok) ↔
      ∀ line ∈ codeLines code, ∀ instruction label,
        readStatement line.tokens = .ok instruction →
          RefersTo instruction label →
          label ∈ declared data ++ declared code := by
  rw [exists_map_eq_ok_iff]
  constructor
  · intro every line member instruction label written operand
    obtain ⟨index, found⟩ := List.getElem?_of_mem member
    obtain ⟨other, otherWritten, there⟩ := getElem?_statements operates found
    rw [written] at otherWritten
    cases otherWritten
    have linkable :=
      Statement.exists_link_iff.mp (every _ (List.mem_of_getElem? there)) label
    rw [names_symbolTable] at linkable
    exact linkable
      ((written_of_readStatement written).pending?_eq_some_iff.mpr operand)
  · intro closed statement member
    obtain ⟨inside, written⟩ := of_mem_statements operates member
    rw [Statement.exists_link_iff, names_symbolTable]
    intro label pending
    exact closed _ inside _ label written
      ((written_of_readStatement written).pending?_eq_some_iff.mp pending)

/-- Linked statements hold written instructions without labels. -/
theorem written_of_linked {source : String} {data code : List Line}
    {linked : List Statement} (laidOut : LaidOut data code)
    (operates : ∀ line ∈ code, IsOperation line)
    (done :
      (statements code).map (Statement.link source (symbolTable data code)) =
      linked.map .ok) {statement : Statement} (member : statement ∈ linked) :
    Written statement.instruction ∧ ∀ label,
      ¬ RefersTo statement.instruction label := by
  have result :=
    List.mem_map_of_mem (f := (.ok : Statement → Except Failure Statement))
      member
  rw [← done, List.mem_map] at result
  obtain ⟨original, originalMember, link⟩ := result
  have written :=
    written_of_readStatement (of_mem_statements operates originalMember).2
  obtain ⟨resolved, becomes, rfl⟩ := resolved_of_link laidOut written link
  exact written.resolved laidOut becomes

/-- Statements that are linked can be encoded. -/
theorem exists_words_of_linked {source : String} {data code : List Line}
    {linked : List Statement} (laidOut : LaidOut data code)
    (operates : ∀ line ∈ code, IsOperation line)
    (done :
      (statements code).map (Statement.link source (symbolTable data code)) =
      linked.map .ok) :
    ∃ words : List Word, linked.map (Statement.encode source) =
      words.map .ok := by
  rw [exists_map_eq_ok_iff]
  intro statement member
  obtain ⟨written, noLabel⟩ := written_of_linked laidOut operates done member
  obtain ⟨word, encoded⟩ := written.exists_encode noLabel
  exact ⟨word, Statement.encode_eq_ok_iff.mpr encoded⟩

/--
Lines that have sections are assembled if their last blocks are well formed.
-/
theorem exists_assembleLines_of_wellFormed {source : String} {lines : List Line}
    {sections : Sections} (read : Sections.ofLines source lines = .ok sections)
    (wellFormed : WellFormed (lastBody .readOnly lines)
      (lastBody .instruction lines)) :
    ∃ program, assembleLines source lines = .ok program := by
  obtain ⟨laidOut, allocates, operates, closed⟩ := wellFormed
  obtain ⟨linked, done⟩ := (@exists_linked_iff source _ _ operates).mpr closed
  obtain ⟨words, encoded⟩ := exists_words_of_linked laidOut operates done
  exact ⟨_, (assembleLines_eq_ok_iff rfl rfl).mpr
    ⟨sections, linked, words, read, laidOut, allocates, operates, done,
      encoded, rfl⟩⟩

/--
A list of lines is assembled exactly if the lines before its first header are
blank or comments, every header opens a section, and the last blocks of data and
of code are well formed.
-/
theorem exists_assembleLines_iff (source : String) (lines : List Line) :
    (∃ program, assembleLines source lines = .ok program) ↔
      (∀ line ∈ untilHeader lines,
        Token.isBlankLine line.text.toList = true ∨
          Token.isComment line.text.toList = true) ∧
      (∀ line ∈ lines, line.isHeader = true → ∃ owner, line.IsHeaderOf owner) ∧
      WellFormed (lastBody .readOnly lines) (lastBody .instruction lines) := by
  rw [← HeadersOpen, ← and_assoc, ← Sections.exists_ofLines_iff source lines]
  constructor
  · rintro ⟨program, assembled⟩
    obtain ⟨sections, linked, words, read, laidOut, allocates, operates,
        done, -⟩ :=
      (assembleLines_eq_ok_iff rfl rfl).mp assembled
    exact ⟨⟨sections, read⟩, laidOut, allocates, operates,
      (exists_linked_iff operates).mp ⟨linked, done⟩⟩
  · rintro ⟨⟨sections, read⟩, wellFormed⟩
    exact exists_assembleLines_of_wellFormed read wellFormed

/-! ## Meaning -/

/-- A program is the one that a block of data and a block of code stand for. -/
structure Meaning (data code : List Line) (program : Program) : Prop where
  /-- There is a statement for each line of code. -/
  lines : program.statements.length = (codeLines code).length
  /-- There is a word for each statement. -/
  words : program.words.length = program.statements.length
  /--
  The word of a line of code is that of the instruction which the line writes,
  with the address of a label in the place of the label.
  -/
  instructions : ∀ index line, (codeLines code)[index]? = some line →
    ∃ statement word instruction,
      program.statements[index]? = some statement ∧
        program.words[index]? = some word ∧
      statement.line = line ∧ statement.address.toNat = 0x600 + index ∧
      readInstruction line.tokens = .ok instruction ∧
      Resolved data code instruction statement.instruction ∧
      statement.instruction.encode = .ok word
  /-- A label has no more than one address. -/
  addresses : ∀ label address other, DeclaredAt data code label address →
    DeclaredAt data code label other → address = other
  /--
  The source map gives the lines of code by their addresses, from the first to
  the last.
  -/
  sourceMap :
    program.sourceMap.map (fun (address, number) => (address.toNat, number)) =
    ((codeLines code).zipIdx 0x600).map (fun (line, address) =>
      (address, line.number))

/-- Statements at successive addresses have the source map of their lines. -/
theorem sourceMap_eq {program : Program} {lines : List Line}
    (length : program.statements.length = lines.length)
    (each : ∀ index line, lines[index]? = some line →
      ∃ statement, program.statements[index]? = some statement ∧
        statement.line = line ∧
        statement.address.toNat = 0x600 + index) :
    program.sourceMap.map (fun (address, number) => (address.toNat, number)) =
      (lines.zipIdx 0x600).map (fun (line, address) =>
        (address, line.number)) := by
  refine List.ext_getElem? ?_
  intro index
  cases found : lines[index]? with
  | some line =>
      obtain ⟨statement, there, rfl, address⟩ := each index line found
      simp [Program.sourceMap, there, address, List.getElem?_zipIdx, found]
  | none =>
      have outside : program.statements[index]? = none := by
        rw [List.getElem?_eq_none_iff] at found ⊢
        omega
      simp [Program.sourceMap, outside, List.getElem?_zipIdx, found]

section Assembled

variable {source : String} {lines : List Line} {program : Program}
  (assembled : assembleLines source lines = .ok program)

include assembled

theorem laidOut_of_assembleLines :
    LaidOut (lastBody .readOnly lines) (lastBody .instruction lines) := by
  obtain ⟨sections, linked, words, -, laidOut, -⟩ :=
    (assembleLines_eq_ok_iff rfl rfl).mp assembled
  exact laidOut

/-- A program has a statement and a word for each line of code. -/
theorem lengths_of_assembleLines :
    program.statements.length =
      (codeLines (lastBody .instruction lines)).length ∧
      program.words.length = program.statements.length := by
  obtain ⟨sections, linked, words, -, -, -, operates, done, encoded, rfl⟩ :=
    (assembleLines_eq_ok_iff rfl rfl).mp assembled
  have linkedLength := congrArg List.length done
  have wordsLength := congrArg List.length encoded
  rw [List.length_map, List.length_map] at linkedLength wordsLength
  rw [length_statements operates] at linkedLength
  exact ⟨linkedLength.symm, wordsLength.symm⟩

/-- The statement and the word of a line of code. -/
theorem statement_of_assembleLines {index : Nat} {line : Line}
    (found : (codeLines (lastBody .instruction lines))[index]? = some line) :
    ∃ instruction resolved word,
      readStatement line.tokens = .ok instruction ∧
      Resolved (lastBody .readOnly lines) (lastBody .instruction lines)
        instruction resolved ∧
      resolved.encode = .ok word ∧
      program.statements[index]? =
        some ⟨UInt32.ofNat (0x600 + index), line, resolved⟩ ∧
      program.words[index]? = some word := by
  obtain ⟨sections, linked, words, -, laidOut, -, operates, done,
      encoded, rfl⟩ :=
    (assembleLines_eq_ok_iff rfl rfl).mp assembled
  obtain ⟨instruction, read, there⟩ := getElem?_statements operates found
  obtain ⟨statement, statementThere, link⟩ := step_of_getElem? done there
  obtain ⟨word, wordThere, encode⟩ := step_of_getElem? encoded statementThere
  obtain ⟨resolved, becomes, rfl⟩ :=
    resolved_of_link laidOut (written_of_readStatement read) link
  exact ⟨instruction, resolved, word, read, becomes,
    Statement.encode_eq_ok_iff.mp encode, statementThere, wordThere⟩

/--
The program of a list of lines is the one that its last blocks of data and code
stand for.
-/
theorem meaning_of_assembleLines :
    Meaning (lastBody .readOnly lines) (lastBody .instruction lines)
      program := by
  have laidOut := laidOut_of_assembleLines assembled
  obtain ⟨statementsLength, wordsLength⟩ := lengths_of_assembleLines assembled
  have address {index : Nat} {line : Line}
      (found : (codeLines (lastBody .instruction lines))[index]? = some line) :
      (UInt32.ofNat (0x600 + index)).toNat = 0x600 + index := by
    have inside := (List.getElem?_eq_some_iff.mp found).1
    have fits := laidOut.codeFits
    rw [UInt32.toNat_ofNat']
    omega
  refine ⟨statementsLength, wordsLength, ?_, ?_,
    sourceMap_eq statementsLength ?_⟩
  · intro index line found
    obtain ⟨instruction, resolved, word, read, becomes, encoded, statementThere,
        wordThere⟩ :=
      statement_of_assembleLines assembled found
    exact ⟨_, word, instruction, statementThere, wordThere, rfl, address found,
      (readStatement_eq_ok_iff.mp read).1, becomes, encoded⟩
  · intro label address other first second
    exact first.unique laidOut second
  · intro index line found
    obtain ⟨instruction, resolved, word, -, -, -, statementThere, -⟩ :=
      statement_of_assembleLines assembled found
    exact ⟨_, statementThere, rfl, address found⟩

end Assembled

/-- Lines with references forward, backward and to data. -/
def referringLines : List Line :=
  [⟨1, ".SECTION READ-ONLY"⟩, ⟨2, ".ARR 3"⟩, ⟨3, "TABLE:"⟩, ⟨4, ".INT 7"⟩,
    ⟨5, ".SECTION INSTRUCTION"⟩, ⟨6, "BAL END"⟩, ⟨7, "LDR R1, TABLE"⟩,
    ⟨8, "END:"⟩, ⟨9, "BAL END"⟩]

theorem meaning_of_referringLines :
    ∃ program, assembleLines "loop.asm" referringLines = .ok program ∧
      program.words = [0x946020, 0xCC4031, 0x946020] ∧
      Meaning [⟨2, ".ARR 3"⟩, ⟨3, "TABLE:"⟩, ⟨4, ".INT 7"⟩]
        [⟨6, "BAL END"⟩, ⟨7, "LDR R1, TABLE"⟩, ⟨8, "END:"⟩, ⟨9, "BAL END"⟩]
        program := by
  have dataIs : lastBody .readOnly referringLines =
      [⟨2, ".ARR 3"⟩, ⟨3, "TABLE:"⟩, ⟨4, ".INT 7"⟩] := by decide
  have codeIs : lastBody .instruction referringLines =
      [⟨6, "BAL END"⟩, ⟨7, "LDR R1, TABLE"⟩, ⟨8, "END:"⟩, ⟨9, "BAL END"⟩] := by
        decide
  obtain ⟨program, assembled, words⟩ : ∃ program,
      assembleLines "loop.asm" referringLines = .ok program ∧
        program.words = [0x946020, 0xCC4031, 0x946020] := ⟨_, rfl, rfl⟩
  rw [← dataIs, ← codeIs]
  exact ⟨program, assembled, words, meaning_of_assembleLines assembled⟩

end Asm24.Assembly
