import Asm24.Proofs.LastBody
import Asm24.Proofs.Program
import Asm24.Proofs.Steps

/-!
# One more instruction

A line of code is put at the end of the last block of code.  In a source text
this changes the numbers of the lines behind it, so the lines are compared by
their texts alone: `AppendsCode` says that they are those from before with one
text more.

If the new line can be read and its label is declared, the program grows by one
word and keeps its words, labels and addresses.  If the new line cannot be read,
assembling fails at that line.
-/

namespace Asm24.Assembly

open Asm24.Machine
open Asm24.Proofs

/-! ## Line numbers -/

/-- The line without its number. -/
def Line.unnumbered (line : Line) : Line :=
  { line with number := 0 }

theorem map_unnumbered_eq {lefts rights : List Line}
    (texts : lefts.map Line.text = rights.map Line.text) :
    lefts.map Line.unnumbered = rights.map Line.unnumbered := by
  have rebuilt := congrArg (List.map (Line.mk 0)) texts
  rwa [List.map_map, List.map_map] at rebuilt

/--
What does not see the numbers of lines is the same for lines with the same
texts.
-/
theorem eq_of_texts {seen : Type} (view : List Line → seen)
    (unseen : ∀ lines, view (lines.map Line.unnumbered) = view lines)
    {lefts rights : List Line}
    (texts : lefts.map Line.text = rights.map Line.text) :
    view lefts = view rights := by
  rw [← unseen lefts, map_unnumbered_eq texts, unseen rights]

/--
What holds of lines by their texts holds of all lines with the same texts.
-/
theorem forall_mem_of_texts {holds : Line → Prop}
    (unseen : ∀ line : Line, holds line.unnumbered ↔ holds line)
    {lefts rights : List Line}
    (texts : lefts.map Line.text = rights.map Line.text)
    (all : ∀ line ∈ lefts, holds line) :
    ∀ line ∈ rights, holds line := by
  have unnumbered : ∀ line ∈ rights.map Line.unnumbered, holds line := by
    rw [← map_unnumbered_eq texts, List.forall_mem_map]
    intro line member
    exact (unseen line).mpr (all line member)
  intro line member
  exact (unseen line).mp (unnumbered _ (List.mem_map_of_mem member))

theorem untilHeader_unnumbered (lines : List Line) :
    untilHeader (lines.map Line.unnumbered) =
      (untilHeader lines).map Line.unnumbered :=
  List.takeWhile_map ..

theorem lastBody?_unnumbered (owner : Section) (lines : List Line) :
    lastBody? owner (lines.map Line.unnumbered) =
      (lastBody? owner lines).map (List.map Line.unnumbered) := by
  induction lines with
  | nil => rfl
  | cons line rest ih =>
      have sameHeader : line.unnumbered.IsHeaderOf owner ↔
          line.IsHeaderOf owner := Iff.rfl
      rw [List.map_cons, lastBody?, lastBody?, ih, untilHeader_unnumbered]
      cases lastBody? owner rest with
      | some body => rfl
      | none =>
          by_cases header : line.IsHeaderOf owner
          · rw [if_pos header, if_pos (sameHeader.mpr header)]
            rfl
          · rw [if_neg header, if_neg (mt sameHeader.mp header)]
            rfl

section Texts

variable {lefts rights : List Line}
  (texts : lefts.map Line.text = rights.map Line.text)

include texts

/-- Lines with the same texts have last bodies with the same texts. -/
theorem texts_lastBody? (owner : Section) :
    (lastBody? owner lefts).map (List.map Line.text) =
      (lastBody? owner rights).map (List.map Line.text) := by
  refine eq_of_texts (fun lines =>
    (lastBody? owner lines).map (List.map Line.text)) ?_ texts
  intro lines
  rw [lastBody?_unnumbered, Option.map_map]
  congr 1
  funext body
  exact List.map_map

omit texts in
theorem map_text_lastBody (owner : Section) (lines : List Line) :
    (lastBody owner lines).map Line.text =
      ((lastBody? owner lines).map (List.map Line.text)).getD [] := by
  rw [lastBody]
  cases lastBody? owner lines <;> rfl

theorem exists_ofLines_of_texts {source : String}
    (read : ∃ sections, Sections.ofLines source lefts = .ok sections) :
    ∃ sections, Sections.ofLines source rights = .ok sections := by
  rw [Sections.exists_ofLines_iff] at read ⊢
  have leads :
      (untilHeader lefts).map Line.text =
        (untilHeader rights).map Line.text := by
    refine eq_of_texts (fun lines => (untilHeader lines).map Line.text) ?_ texts
    intro lines
    rw [untilHeader_unnumbered, List.map_map]
    rfl
  exact ⟨forall_mem_of_texts (fun _ => Iff.rfl) leads read.1,
    forall_mem_of_texts (fun _ => Iff.rfl) texts read.2⟩

theorem declarations_of_texts {size : Line → Nat}
    (unseen : ∀ line : Line, size line.unnumbered = size line) (start : Nat) :
    declarations size start lefts = declarations size start rights := by
  refine eq_of_texts (declarations size start) ?_ texts
  intro lines
  have labels : ∀ line ∈ lines,
      line.unnumbered.label? = line.label?.map id := by
    intro line _
    rw [Option.map_id]
    rfl
  rw [declarations_map (fun line _ => unseen line) labels, Prod.map_id,
    List.map_id]

theorem declared_of_texts : declared lefts = declared rights := by
  rw [← map_fst_declarations codeSize 0,
    declarations_of_texts texts (fun _ => rfl), map_fst_declarations]

theorem texts_codeLines :
    (codeLines lefts).map Line.text = (codeLines rights).map Line.text := by
  refine eq_of_texts (fun lines => (codeLines lines).map Line.text) ?_ texts
  intro lines
  have unseen : Line.isCode ∘ Line.unnumbered = Line.isCode := rfl
  rw [codeLines, List.filter_map, unseen, List.map_map]
  rfl

theorem laidOut_of_texts {otherLefts otherRights : List Line}
    (otherTexts : otherLefts.map Line.text = otherRights.map Line.text)
    (laidOut : LaidOut lefts otherLefts) : LaidOut rights otherRights := by
  have sizes : totalSize dataSize lefts = totalSize dataSize rights :=
    eq_of_texts (totalSize dataSize)
      (fun lines => totalSize_map (fun _ _ => rfl)) texts
  have lengths :
      (codeLines otherLefts).length = (codeLines otherRights).length := by
    simpa using congrArg List.length (texts_codeLines otherTexts)
  refine ⟨sizes ▸ laidOut.dataFits, lengths ▸ laidOut.codeFits, ?_⟩
  rw [← declared_of_texts texts, ← declared_of_texts otherTexts]
  exact laidOut.distinct

end Texts

/-! ## Appending a line -/

/--
The texts of lines with one more at the end of the last block of code, whatever
the numbers.
-/
def AppendsCode (text : String) (lines edited : List Line) : Prop :=
  edited.map Line.text =
    (withLastBody .instruction (· ++ [⟨0, text⟩]) lines).map Line.text

/--
The last blocks are those from before, by their texts, with one more line of
code.
-/
structure Appended (lines edited front : List Line) (last : Line) : Prop where
  data :
    (lastBody .readOnly lines).map Line.text =
      (lastBody .readOnly edited).map Line.text
  code : (lastBody .instruction lines).map Line.text = front.map Line.text
  body : lastBody .instruction edited = front ++ [last]
  isCode : last.isCode = true

theorem isHeader_concat {text : String}
    (inner : Line.isHeader ⟨0, text⟩ = false) {lines : List Line} :
    ∀ body, lastBody? .instruction lines = some body →
      ∀ line ∈ body ++ [⟨0, text⟩], line.isHeader = false := by
  intro body found
  exact List.forall_mem_append.mpr ⟨isHeader_of_mem_lastBody? found,
    by simpa using inner⟩

theorem exists_appended {text : String} {lines edited : List Line}
    (appends : AppendsCode text lines edited)
    (inner : Line.isHeader ⟨0, text⟩ = false)
    (isCode : Line.isCode ⟨0, text⟩ = true)
    (opened : ∃ line ∈ lines, line.IsHeaderOf .instruction) :
    ∃ front last, Appended lines edited front last ∧ last.text = text := by
  rcases exists_lastBody? opened with ⟨code, found⟩
  have dataTexts := texts_lastBody? appends .readOnly
  have codeTexts := texts_lastBody? appends .instruction
  rw [lastBody?_withLastBody (isHeader_concat inner),
    if_neg (by decide)] at dataTexts
  rw [lastBody?_withLastBody (isHeader_concat inner), if_pos rfl,
    found] at codeTexts
  rcases Option.map_eq_some_iff.mp codeTexts with ⟨body, bodyFound, bodyTexts⟩
  rw [List.map_append] at bodyTexts
  rcases List.map_eq_append_iff.mp bodyTexts with
    ⟨front, lasts, rfl, frontTexts, lastTexts⟩
  rcases List.map_eq_singleton_iff.mp lastTexts with ⟨last, rfl, lastText⟩
  refine ⟨front, last, ⟨?_, ?_, ?_, ?_⟩, lastText⟩
  · rw [map_text_lastBody, map_text_lastBody, dataTexts]
  · rw [lastBody, found]
    exact frontTexts.symm
  · rw [lastBody, bodyFound]
    rfl
  · obtain rfl : last.text = text := lastText
    exact isCode

/-- Lines that have sections have sections with the line appended. -/
theorem exists_ofLines_of_appends {text : String} {lines edited : List Line}
    (appends : AppendsCode text lines edited)
    (inner : Line.isHeader ⟨0, text⟩ = false) {source : String}
    (read : ∃ sections, Sections.ofLines source lines = .ok sections) :
    ∃ sections, Sections.ofLines source edited = .ok sections :=
  exists_ofLines_of_texts appends.symm
    (exists_ofLines_withLastBody (isHeader_concat inner) read)

namespace Appended

variable {lines edited front : List Line} {last : Line}
  (appended : Appended lines edited front last)

include appended

theorem codeLines_eq :
    codeLines (lastBody .instruction edited) = codeLines front ++ [last] := by
  simp [appended.body, codeLines, appended.isCode]

theorem length_codeLines :
    (codeLines front).length =
      (codeLines (lastBody .instruction lines)).length := by
  simpa using congrArg List.length (texts_codeLines appended.code).symm

theorem declarations_data :
    declarations dataSize 0x400 (lastBody .readOnly edited) =
      declarations dataSize 0x400 (lastBody .readOnly lines) :=
  (declarations_of_texts appended.data (fun _ => rfl) 0x400).symm

/-- The new line declares no label and moves none. -/
theorem declarations_code :
    declarations codeSize 0x600 (lastBody .instruction edited) =
      declarations codeSize 0x600 (lastBody .instruction lines) := by
  rw [appended.body, declarations_concat_of_no_label _
      (Line.label?_eq_none_of_isCode appended.isCode),
    declarations_of_texts appended.code (fun _ => rfl)]

theorem symbolTable_eq :
    symbolTable (lastBody .readOnly edited) (lastBody .instruction edited) =
      symbolTable (lastBody .readOnly lines) (lastBody .instruction lines) := by
  rw [symbolTable, appended.declarations_data, appended.declarations_code,
    symbolTable]

theorem declaredAt_iff {label : String} {address : Nat} :
    DeclaredAt (lastBody .readOnly edited) (lastBody .instruction edited)
        label address ↔
      DeclaredAt (lastBody .readOnly lines) (lastBody .instruction lines)
        label address := by
  rw [declaredAt_iff_mem, appended.declarations_data,
    appended.declarations_code, declaredAt_iff_mem]

theorem declared_eq :
    declared (lastBody .readOnly edited) ++
      declared (lastBody .instruction edited) =
      declared (lastBody .readOnly lines) ++
        declared (lastBody .instruction lines) := by
  rw [← names_symbolTable, appended.symbolTable_eq, names_symbolTable]

theorem allocates (allocates : ∀ line ∈ lastBody .readOnly lines, IsData line) :
    ∀ line ∈ lastBody .readOnly edited, IsData line :=
  forall_mem_of_texts (fun _ => Iff.rfl) appended.data allocates

theorem operates (operates : ∀ line ∈ lastBody .instruction lines,
    IsOperation line) :
    ∀ line ∈ front, IsOperation line :=
  forall_mem_of_texts (fun _ => Iff.rfl) appended.code operates

theorem laidOut_front
    (laidOut : LaidOut (lastBody .readOnly lines)
      (lastBody .instruction lines)) :
    LaidOut (lastBody .readOnly edited) front :=
  laidOut_of_texts appended.data appended.code laidOut

theorem laidOut
    (laidOut : LaidOut (lastBody .readOnly lines) (lastBody .instruction lines))
    (room : (codeLines (lastBody .instruction lines)).length < 0x9FF) :
    LaidOut (lastBody .readOnly edited) (lastBody .instruction edited) := by
  refine ⟨(appended.laidOut_front laidOut).dataFits, ?_, ?_⟩
  · rw [appended.codeLines_eq, List.length_append, appended.length_codeLines]
    exact room
  · rw [appended.declared_eq]
    exact laidOut.distinct

/--
The blocks stay well formed if the new line can be read and its label is
declared.
-/
theorem wellFormed {instruction : Instruction}
    (wellFormed : WellFormed (lastBody .readOnly lines)
      (lastBody .instruction lines))
    (room : (codeLines (lastBody .instruction lines)).length < 0x9FF)
    (written : readStatement last.tokens = .ok instruction)
    (closed : ∀ label, RefersTo instruction label →
      label ∈ declared (lastBody .readOnly lines) ++ declared
        (lastBody .instruction lines)) :
    WellFormed (lastBody .readOnly edited) (lastBody .instruction edited) := by
  have texts := texts_codeLines appended.code
  refine ⟨appended.laidOut wellFormed.toLaidOut room,
    appended.allocates wellFormed.allocates, ?_, ?_⟩
  · rw [appended.body, List.forall_mem_append]
    refine ⟨appended.operates wellFormed.operates, ?_⟩
    intro line member _
    rw [List.mem_singleton.mp member]
    exact ⟨instruction, written⟩
  · rw [appended.codeLines_eq, appended.declared_eq, List.forall_mem_append]
    refine ⟨forall_mem_of_texts (fun _ => Iff.rfl) texts wellFormed.closed, ?_⟩
    intro line member other label otherWritten
    rw [List.mem_singleton.mp member, written] at otherWritten
    cases otherWritten
    exact closed label

end Appended

/-! ## Programs with the same start -/

/-- An instruction is resolved in one way only. -/
theorem Resolved.unique {data code : List Line} (laidOut : LaidOut data code)
    {instruction left right : Instruction}
    (first : Resolved data code instruction left)
    (second : Resolved data code instruction right) : left = right := by
  cases first with
  | plain noLabel =>
      cases second with
      | plain => rfl
      | label operand => exact absurd operand (noLabel _)
  | label operand declaredAt =>
      cases second with
      | plain noLabel => exact absurd operand (noLabel _)
      | label otherOperand otherDeclaredAt =>
          obtain rfl :=
            congrArg Immediate.label (operand.2.symm.trans otherOperand.2)
          rw [declaredAt.unique laidOut otherDeclaredAt]

theorem Resolved.imp {data code otherData otherCode : List Line}
    (declares : ∀ label address,
      DeclaredAt data code label address →
        DeclaredAt otherData otherCode label address)
    {instruction resolved : Instruction}
    (becomes : Resolved data code instruction resolved) :
    Resolved otherData otherCode instruction resolved := by
  cases becomes with
  | plain noLabel => exact .plain noLabel
  | label operand declaredAt => exact .label operand (declares _ _ declaredAt)

/-- An allocation without the number of its line. -/
def Allocation.unnumbered (allocation : Allocation) : Allocation :=
  { allocation with line := 0 }

theorem allocations_of_texts {lefts rights : List Line}
    (texts : lefts.map Line.text = rights.map Line.text) :
    (allocations lefts).map Allocation.unnumbered =
      (allocations rights).map Allocation.unnumbered := by
  refine eq_of_texts (fun lines =>
    (allocations lines).map Allocation.unnumbered) ?_ texts
  intro lines
  have items : ∀ line ∈ lines, ∀ place, allocationAt? place line.unnumbered =
      (allocationAt? place line).map Allocation.unnumbered := by
    intro line _ place
    by_cases code : line.isCode = true
    · rw [allocationAt?, if_pos (show line.unnumbered.isCode = true from code),
        allocationAt?, if_pos code,
        show line.unnumbered.tokens = line.tokens from rfl]
      cases Allocation.read line.tokens (UInt32.ofNat place) <;> rfl
    · rw [allocationAt?,
        if_neg (show ¬ line.unnumbered.isCode = true from code), allocationAt?,
        if_neg code]
      rfl
  rw [allocations, @yields_map _ dataSize _ _ _ Line.unnumbered
    _ _ (fun _ _ => rfl) items, List.map_map]
  rfl

/-- What of a statement does not depend on its line. -/
def Statement.content (statement : Statement) : Address × Instruction :=
  (statement.address, statement.instruction)

/--
The program has one more word at its end, and keeps its words, labels and
addresses.
-/
structure Program.ExtendedBy (program more : Program) (word : Word) : Prop where
  words : more.words = program.words ++ [word]
  statements :
    program.statements.map Statement.content <+:
      more.statements.map Statement.content
  symbols : more.symbols = program.symbols
  allocations : more.allocations.map Allocation.unnumbered =
    program.allocations.map Allocation.unnumbered

theorem eq_concat_of_getElem? {item : Type} {items longer : List item}
    {last : item} (length : longer.length = items.length + 1)
    (same : ∀ index < items.length, longer[index]? = items[index]?)
    (final : longer[items.length]? = some last) : longer = items ++ [last] := by
  refine List.ext_getElem? ?_
  intro index
  rcases Nat.lt_trichotomy index items.length with inside | rfl | outside
  · rw [same index inside, List.getElem?_append_left inside]
  · rw [final, List.getElem?_concat_length]
  · rw [List.getElem?_eq_none (by omega),
      List.getElem?_eq_none (by simp; omega)]

/-- The pass over code stops at a line that cannot be read. -/
theorem readCode_concat_of_error {source : String} {symbols : SymbolTable}
    {count : UInt32} {lines : List Line} {last : Line}
    {result : SymbolTable × List Statement} {fault : Fault}
    (read : readCode source symbols count lines = .ok result)
    (isCode : last.isCode = true)
    (refused : readStatement last.tokens = .error fault) :
    readCode source symbols count (lines ++ [last]) =
      .error ⟨fault, last, source⟩ := by
  have content := (Line.content_of_isCode isCode).1
  have stops (state : PassState Statement) :
      passStep Region.instruction.base source (takeStatement source)
        state last = .error ⟨fault, last, source⟩ := by
    simp only [passStep, content, takeStatement, refused, locate_error]
    rfl
  rw [readCode_eq_run, runPass] at read ⊢
  rw [List.foldlM_append]
  cases ran :
    lines.foldlM
      (passStep Region.instruction.base source (takeStatement source))
      ⟨symbols, count, []⟩ with
  | error failure =>
      rw [ran] at read
      cases read
  | ok state =>
      simp only [bind, Except.bind, List.foldlM_cons, stops, Except.map]

section Assembled

variable {source : String} {lines edited front : List Line} {last : Line}
  {program more : Program} (appended : Appended lines edited front last)
  (assembled : assembleLines source lines = .ok program)

include assembled

theorem wellFormed_of_assembleLines :
    WellFormed (lastBody .readOnly lines) (lastBody .instruction lines) := by
  rcases (assembleLines_eq_ok_iff rfl rfl).mp assembled with
    ⟨sections, linked, words, -, laidOut, allocates, operates, done, -⟩
  exact ⟨laidOut, allocates, operates,
    (exists_linked_iff operates).mp ⟨linked, done⟩⟩

theorem tables_of_assembleLines :
    program.symbols = symbolTable (lastBody .readOnly lines)
      (lastBody .instruction lines) ∧
      program.allocations = allocations (lastBody .readOnly lines) := by
  rcases (assembleLines_eq_ok_iff rfl rfl).mp assembled with
    ⟨sections, linked, words, -, -, -, -, -, -, rfl⟩
  exact ⟨rfl, rfl⟩

include appended

/--
A line from before has the same word and the same instruction at the same
address.
-/
theorem same_statement (assembledMore : assembleLines source edited = .ok more)
    {index : Nat}
    (inside : index < (codeLines (lastBody .instruction lines)).length) :
    more.words[index]? = program.words[index]? ∧
      (more.statements.map Statement.content)[index]? =
        (program.statements.map Statement.content)[index]? := by
  have laidOut := laidOut_of_assembleLines assembled
  have found := List.getElem?_eq_getElem inside
  generalize (codeLines (lastBody .instruction lines))[index] = line at found
  have texts := congrArg (·[index]?) (texts_codeLines appended.code)
  simp only [List.getElem?_map, found, Option.map_some] at texts
  rcases Option.map_eq_some_iff.mp texts.symm with ⟨other, foundFront, text⟩
  have foundMore :
      (codeLines (lastBody .instruction edited))[index]? = some other := by
    rw [appended.codeLines_eq, List.getElem?_append_left
      (List.getElem?_eq_some_iff.mp foundFront).1, foundFront]
  rcases statement_of_assembleLines assembled found with
    ⟨instruction, resolved, word, read, becomes, encoded, there, wordThere⟩
  rcases statement_of_assembleLines assembledMore foundMore with
    ⟨otherInstruction, otherResolved, otherWord, otherRead, otherBecomes,
      otherEncoded, otherThere, otherWordThere⟩
  rw [Line.tokens, text, ← Line.tokens, read] at otherRead
  cases otherRead
  obtain rfl : resolved = otherResolved :=
    becomes.unique laidOut (otherBecomes.imp fun _ _ =>
      appended.declaredAt_iff.mp)
  rw [encoded] at otherEncoded
  cases otherEncoded
  refine ⟨otherWordThere.trans wordThere.symm, ?_⟩
  rw [List.getElem?_map, List.getElem?_map, there, otherThere]
  rfl

/--
A program with the line appended has one more word, which is that of the line.
-/
theorem extended_of_assembleLines
    (assembledMore : assembleLines source edited = .ok more) :
    ∃ instruction resolved word, readStatement last.tokens = .ok instruction ∧
      Resolved (lastBody .readOnly lines) (lastBody .instruction lines)
        instruction resolved ∧
      resolved.encode = .ok word ∧ program.ExtendedBy more word := by
  have final :
      (codeLines (lastBody .instruction edited))[(codeLines front).length]? =
      some last := by
    rw [appended.codeLines_eq, List.getElem?_concat_length]
  rcases statement_of_assembleLines assembledMore final with
    ⟨instruction, resolved, word, read, becomes, encoded, there, wordThere⟩
  rcases lengths_of_assembleLines assembled with ⟨statementsLength, wordsLength⟩
  rcases lengths_of_assembleLines assembledMore with
    ⟨moreStatementsLength, moreWordsLength⟩
  rw [appended.length_codeLines] at there wordThere
  rw [appended.codeLines_eq, List.length_append,
    appended.length_codeLines] at moreStatementsLength
  have same : ∀ index < program.statements.length,
      more.words[index]? = program.words[index]? ∧
        (more.statements.map Statement.content)[index]? =
          (program.statements.map Statement.content)[index]? := by
    rw [statementsLength]
    intro index inside
    exact same_statement appended assembled assembledMore inside
  rw [← statementsLength] at there wordThere moreStatementsLength
  refine ⟨instruction, resolved, word, read, becomes.imp fun _ _ =>
    appended.declaredAt_iff.mp,
    encoded, ?_, ?_, ?_, ?_⟩
  · apply eq_concat_of_getElem?
    · rw [moreWordsLength, moreStatementsLength, wordsLength]
      rfl
    · rw [wordsLength]
      exact fun index inside => (same index inside).1
    · rw [wordsLength]
      exact wordThere
  · have grown : more.statements.map Statement.content =
        program.statements.map Statement.content ++
          [(UInt32.ofNat (0x600 + program.statements.length), resolved)] := by
      apply eq_concat_of_getElem?
      · rw [List.length_map, List.length_map, moreStatementsLength]
        rfl
      · rw [List.length_map]
        exact fun index inside => (same index inside).2
      · rw [List.length_map, List.getElem?_map, there]
        rfl
    exact ⟨_, grown.symm⟩
  · rw [(tables_of_assembleLines assembledMore).1, appended.symbolTable_eq,
      (tables_of_assembleLines assembled).1]
  · rw [(tables_of_assembleLines assembledMore).2,
      (tables_of_assembleLines assembled).2, allocations_of_texts appended.data]

/--
A line that can be read is accepted if its label is declared and there is room
for it.
-/
theorem exists_assembleLines_appended
    (read : ∃ sections, Sections.ofLines source edited = .ok sections)
    (room : program.words.length < 0x9FF) {instruction : Instruction}
    (written : readStatement last.tokens = .ok instruction)
    (known : ∀ label, RefersTo instruction label →
      ∃ address, program.symbols.lookup label = some address) :
    ∃ more, assembleLines source edited = .ok more := by
  rcases read with ⟨sections, read⟩
  rcases lengths_of_assembleLines assembled with ⟨statementsLength, wordsLength⟩
  rw [wordsLength, statementsLength] at room
  refine exists_assembleLines_of_wellFormed read
    (appended.wellFormed (wellFormed_of_assembleLines assembled) room
      written ?_)
  intro label operand
  rw [← names_symbolTable, ← (tables_of_assembleLines assembled).1,
    ← SymbolTable.exists_lookup_iff]
  exact known label operand

/-- A line that cannot be read is where assembling fails. -/
theorem assembleLines_refused
    (read : ∃ sections, Sections.ofLines source edited = .ok sections)
    {fault : Fault} (refused : readStatement last.tokens = .error fault) :
    assembleLines source edited = .error (.refused ⟨fault, last, source⟩) := by
  rcases read with ⟨sections, read⟩
  rcases wellFormed_of_assembleLines assembled with
    ⟨laidOut, allocates, operates, -⟩
  rcases (@passes_eq_ok_iff source (lastBody .readOnly edited) front
    _ _ _ _).mpr ⟨appended.laidOut_front laidOut, appended.allocates allocates,
    appended.operates operates,
      rfl, rfl, rfl, rfl⟩ with ⟨dataRead, frontRead⟩
  have codeRead := readCode_concat_of_error frontRead appended.isCode refused
  rw [← appended.body] at codeRead
  rw [← Sections.body_ofLines read] at dataRead
  rw [← Sections.body_ofLines read, ← Sections.body_ofLines read] at codeRead
  simp only [assembleLines, read, refuse, bind, Except.bind, dataRead, codeRead]

end Assembled

end Asm24.Assembly
