import Asm24.Proofs.LastBody
import Asm24.Proofs.Program
import Asm24.Proofs.Words
import Mathlib.Data.List.Nodup

/-!
# Renaming labels

The names of labels do not matter.  `renameLines` gives other names to the
labels of the last block of data and the last block of code, where they are
declared and where they stand in the place of a number.  If no two labels get
one name, and no label gets a name that is read as a register or an operation,
the lines are assembled as before, and only the names in the symbol table
differ.

A renamed line is read like the original with the label replaced, takes the same
words and declares the renamed label.  So both programs have one layout, and a
renamed label has the address of the original.
-/

namespace Asm24.Assembly

open Asm24.Machine
open Asm24.Proofs

/-! ## Renamed lines -/

namespace Line

/-- The label that a line of code has in the place of a number. -/
def reference? (line : Line) : Option String :=
  if line.isCode then
    match readInstruction line.tokens with
    | .ok instruction =>
        if instruction.immediate.unlinked then
          some instruction.immediate.label
        else
          none
    | .error _ => none
  else
    none

/-- The line with another name for the label that it declares. -/
def renameLabel (rename : String → String) (line : Line) : Line :=
  match line.label? with
  | some name => { line with text := rename name ++ ":" }
  | none => line

/-- The line with other names for the label that it declares or refers to. -/
def renameCode (rename : String → String) (line : Line) : Line :=
  match line.reference? with
  | some label =>
      let text := Text.replaceLast (rename label).toList line.text.toList
      { line with text := String.ofList text }
  | none => line.renameLabel rename

end Line

@[simp]
theorem Line.number_renameCode (rename : String → String) (line : Line) :
    (line.renameCode rename).number = line.number := by
  unfold renameCode renameLabel
  cases line.reference? with
  | some label => rfl
  | none => cases line.label? <;> rfl

/--
The lines with other names for the labels of the last blocks of data and of
code.
-/
def renameLines (rename : String → String) (lines : List Line) : List Line :=
  withLastBody .instruction (List.map (Line.renameCode rename))
    (withLastBody .readOnly (List.map (Line.renameLabel rename)) lines)

/-- The labels that a block of data and a block of code declare or refer to. -/
def labelNames (data code : List Line) : List String :=
  declared data ++ declared code ++ code.filterMap Line.reference?

/-- New names for some labels. -/
structure IsRenaming (rename : String → String) (labels : List String) :
    Prop where
  /-- No two labels get one name. -/
  injective : ∀ first ∈ labels, ∀ second ∈ labels,
    rename first = rename second → first = second
  /--
  A new name is a label that has neither the form of a register nor that of an
  operation.
  -/
  images : ∀ label ∈ labels, IsReference (rename label)

/-! ## Lines that declare labels -/

theorem isBlank_of_isLabelChar {char : Char}
    (isLabel : Token.isLabelChar char = true) :
    Text.isBlank char = false := by
  rw [Token.isLabelChar, Bool.or_eq_true, Bool.or_eq_true, beq_iff_eq,
    beq_iff_eq] at isLabel
  rcases isLabel with (visible | rfl) | rfl
  · change ((decide (65 ≤ char.val ∧ char.val ≤ 90) ||
      (97 ≤ char.val && char.val ≤ 122)) ||
      (48 ≤ char.val && char.val ≤ 57)) = true at visible
    simp only [Bool.or_eq_true, Bool.and_eq_true, decide_eq_true_eq,
      UInt32.le_iff_toNat_le] at visible
    change ((65 ≤ char.toNat ∧ char.toNat ≤ 90) ∨
      (97 ≤ char.toNat ∧ char.toNat ≤ 122)) ∨
      (48 ≤ char.toNat ∧ char.toNat ≤ 57) at visible
    simp [Text.isBlank]
    omega
  · decide
  · decide

theorem isLabelChar_of_isLabelName {word : List Char}
    (isName : Token.isLabelName word = true) :
    ∀ char ∈ word, Token.isLabelChar char = true := by
  cases word with
  | nil => cases isName
  | cons first rest =>
      rw [Token.isLabelName, Bool.and_eq_true, List.all_eq_true] at isName
      refine List.forall_mem_cons.mpr ⟨?_, isName.2⟩
      simp [Token.isLabelChar, Char.isAlphanum, isName.1]

theorem isWord_of_isLabelName {word : List Char}
    (isName : Token.isLabelName word = true) :
    Text.IsWord word := by
  constructor
  · rintro rfl
    cases isName
  · intro char member
    exact isBlank_of_isLabelChar (isLabelChar_of_isLabelName isName char member)

theorem IsReference.isLabelName {label : String}
    (reference : IsReference label) :
    Token.isLabelName label.toList = true := by
  have both := reference.1
  rw [Token.isLabelImmediate, Bool.and_eq_true] at both
  exact both.1

/-- A line that declares a label is one word. -/
theorem Line.isWord_of_label? {line : Line} {name : String}
    (label : line.label? = some name) :
    Text.IsWord line.text.toList := by
  rcases label?_eq_some_iff.mp label with ⟨isName, text⟩
  rcases isWord_of_isLabelName isName with ⟨-, visible⟩
  rw [text, String.toList_append]
  refine ⟨by simp, ?_⟩
  intro char member
  rcases List.mem_append.mp member with inName | colon
  · exact visible char inName
  · rw [show char = ':' by simpa using colon]
    decide

theorem isLabelLine_of_isBlank {text : List Char} {space : Char}
    (member : space ∈ text) (blank : Text.isBlank space = true) :
    Token.isLabelLine text = false := by
  rw [Bool.eq_false_iff]
  intro label
  have found :
      Line.label? ⟨0, String.ofList text⟩ =
        some (String.ofList text.dropLast) := by
    rw [Line.label?, String.toList_ofList, if_pos label]
  have visible :=
    (Line.isWord_of_label? found).2 space (by rwa [String.toList_ofList])
  rw [blank] at visible
  cases visible

namespace Line

theorem isHeader_eq_false_of_label? {line : Line} {name : String}
    (label : line.label? = some name) : line.isHeader = false := by
  rcases isWord_of_label? label with ⟨nonempty, visible⟩
  rw [isHeader, tokens, Text.words_eq_singleton nonempty visible,
    beq_eq_false_iff_ne]
  intro header
  have text : line.text = ".SECTION" := by simpa using header
  have last : ".SECTION".toList.getLast? = some ':' := by
    rw [← text, (label?_eq_some_iff.mp label).2, String.toList_append]
    simp
  revert last
  decide

/-- The second line stands for the first under new names for labels. -/
structure RenamesTo (rename : String → String) (line renamed : Line) :
    Prop where
  label : renamed.label? = line.label?.map rename
  code : renamed.isCode = line.isCode
  inner : line.isHeader = false → renamed.isHeader = false

theorem renameLabel_of_isCode {line : Line} (code : line.isCode = true)
    (rename : String → String) : line.renameLabel rename = line := by
  rw [renameLabel, label?_eq_none_of_isCode code]

theorem renamesTo_renameLabel {rename : String → String} {line : Line}
    (images : ∀ name, line.label? = some name → IsReference (rename name)) :
    RenamesTo rename line (line.renameLabel rename) := by
  unfold renameLabel
  cases label : line.label? with
  | none =>
      dsimp only
      exact ⟨by rw [label, Option.map_none], rfl, id⟩
  | some name =>
      dsimp only
      have renamed :
          label? ⟨line.number, rename name ++ ":"⟩ = some (rename name) :=
        label?_eq_some_iff.mpr ⟨(images name label).isLabelName, rfl⟩
      refine ⟨?_, ?_, fun _ => isHeader_eq_false_of_label? renamed⟩
      · rw [renamed, label, Option.map_some]
      · rw [isCode_eq_false_of_label? renamed, isCode_eq_false_of_label? label]

end Line

section Data

variable {rename : String → String} {line : Line}
  (renamed : line.RenamesTo rename (line.renameLabel rename))

include renamed

theorem dataSize_renameLabel :
    dataSize (line.renameLabel rename) = dataSize line := by
  cases code : line.isCode with
  | true => rw [Line.renameLabel_of_isCode code]
  | false =>
      rw [dataSize_eq_zero code, dataSize_eq_zero (renamed.code.trans code)]

theorem allocationAt?_renameLabel (offset : Nat) :
    allocationAt? offset (line.renameLabel rename) =
      allocationAt? offset line := by
  cases code : line.isCode with
  | true => rw [Line.renameLabel_of_isCode code]
  | false => simp [allocationAt?, code, renamed.code.trans code]

theorem IsData.renameLabel (isData : IsData line) :
    IsData (line.renameLabel rename) := by
  intro code
  rw [renamed.code] at code
  rw [Line.renameLabel_of_isCode code]
  exact isData code

end Data

/-! ## Lines that refer to labels -/

theorem isComment_append {front : List Char} (long : 2 ≤ front.length)
    (left right : List Char) :
    Token.isComment (front ++ left) = Token.isComment (front ++ right) := by
  match front with
  | [] => simp at long
  | [_] => simp at long
  | first :: second :: rest =>
      simp only [List.cons_append]
      unfold Token.isComment
      split
      case h_1 same => cases same; rfl
      case h_2 same => cases same; rfl
      case h_3 noHash noSlash =>
        split
        case h_1 same =>
          cases same
          exact absurd rfl (noHash _)
        case h_2 same =>
          cases same
          exact absurd rfl (noSlash _)
        case h_3 => rfl

/-- A line of code with another last word holds code. -/
theorem Line.replaceLast_spec {line : Line} {operator last : String}
    {middle : List String} {word : List Char} (code : line.isCode = true)
    (words : line.tokens = operator :: middle ++ [last])
    (isWord : Text.IsWord word) :
    Line.isCode ⟨line.number,
      String.ofList (Text.replaceLast word line.text.toList)⟩ = true ∧
      Line.tokens ⟨line.number,
        String.ofList (Text.replaceLast word line.text.toList)⟩ =
        operator :: middle ++ [String.ofList word] := by
  have front : (Text.words line.text.toList).dropLast.map String.ofList =
      operator :: middle := by
    rw [List.map_dropLast, ← Line.tokens, words, List.dropLast_concat]
  have several : (Text.words line.text.toList).dropLast ≠ [] := by
    intro none
    rw [none] at front
    cases front
  have some : Text.words line.text.toList ≠ [] := by
    intro none
    rw [none] at several
    exact several rfl
  have replaced := Text.words_replaceLast some isWord
  rcases Text.beforeLast_of_several several with ⟨long, space, inFront, blank⟩
  constructor
  · rw [Line.isCode_iff, String.toList_ofList]
    refine ⟨?_, ?_, ?_⟩
    · rw [Option.eq_none_iff_forall_ne_some]
      intro name label
      have visible := (Line.isWord_of_label? label).2 space
      rw [String.toList_ofList, blank] at visible
      cases visible (by simp [Text.replaceLast, inFront])
    · rw [Token.isBlankLine, Bool.eq_false_iff, ne_eq, ← Text.words_eq_nil_iff,
        replaced]
      simp
    · rcases Line.isCode_iff.mp code with ⟨-, -, noComment⟩
      rcases Text.exists_last_word some with ⟨old, -, whole⟩
      rw [whole, List.append_assoc] at noComment
      rw [Text.replaceLast, List.append_assoc, isComment_append long, noComment]
  · rw [Line.tokens, String.toList_ofList, replaced, List.map_append, front]
    rfl

/-- The instruction with another name for its label operand. -/
def renameOperand (rename : String → String) (instruction : Instruction) :
    Instruction :=
  if instruction.immediate.unlinked then
    { instruction with
      immediate := .ofLabel (rename instruction.immediate.label) }
  else
    instruction

section Operand

variable {instruction : Instruction} {label : String} (rename : String → String)

theorem renameOperand_of_label (written : Written instruction)
    (operand : RefersTo instruction label) :
    renameOperand rename instruction =
      { instruction with immediate := .ofLabel (rename label) } := by
  rcases written.unlinked_iff.mpr operand with ⟨unlinked, rfl⟩
  rw [renameOperand, if_pos unlinked]

theorem renameOperand_of_no_label (written : Written instruction)
    (noLabel : ∀ label, ¬ RefersTo instruction label) :
    renameOperand rename instruction = instruction := by
  rw [renameOperand, if_neg]
  intro unlinked
  exact noLabel _ (written.unlinked_iff.mp ⟨unlinked, rfl⟩)

end Operand

theorem Line.reference?_eq_some_iff {line : Line} {instruction : Instruction}
    (code : line.isCode = true)
    (read : readStatement line.tokens = .ok instruction) {label : String} :
    line.reference? = some label ↔ RefersTo instruction label := by
  rw [← (written_of_readStatement read).unlinked_iff, reference?, if_pos code,
    (readStatement_eq_ok_iff.mp read).1]
  simp

/--
The statement with another name for its label operand, in its line as well.
-/
def Statement.rename (rename : String → String) (statement : Statement) :
    Statement where
  address := statement.address
  line := statement.line.renameCode rename
  instruction := renameOperand rename statement.instruction

section Code

variable {rename : String → String} {line : Line}
  (images : ∀ label, line.label? = some label ∨ line.reference? = some label →
    IsReference (rename label))

include images

/--
A renamed line of code writes the instruction of the line with a renamed label.
-/
theorem readStatement_renameCode {instruction : Instruction}
    (code : line.isCode = true)
    (read : readStatement line.tokens = .ok instruction) :
    (line.renameCode rename).isCode = true ∧
      (line.renameCode rename).tokens.head? = line.tokens.head? ∧
      readStatement (line.renameCode rename).tokens =
        .ok (renameOperand rename instruction) := by
  have written := written_of_readStatement read
  cases reference : line.reference? with
  | some label =>
      have image := images label (Or.inr reference)
      have operand := (Line.reference?_eq_some_iff code read).mp reference
      rcases readStatement_replace read operand with
        ⟨operator, middle, tokens, again⟩
      rcases Line.replaceLast_spec code tokens
        (isWord_of_isLabelName image.isLabelName) with
        ⟨stillCode, renamedTokens⟩
      rw [String.ofList_toList] at renamedTokens
      rw [Line.renameCode, reference,
        renameOperand_of_label rename written operand]
      refine ⟨stillCode, ?_, ?_⟩
      · rw [renamedTokens, tokens]
        rfl
      · rw [renamedTokens]
        exact again _ image
  | none =>
      have noLabel : ∀ label, ¬ RefersTo instruction label := by
        intro label operand
        rw [(Line.reference?_eq_some_iff code read).mpr operand] at reference
        cases reference
      rw [Line.renameCode, reference, Line.renameLabel_of_isCode code,
        renameOperand_of_no_label rename written noLabel]
      exact ⟨code, rfl, read⟩

theorem Line.renamesTo_renameCode (isOperation : IsOperation line) :
    line.RenamesTo rename (line.renameCode rename) := by
  cases code : line.isCode with
  | false =>
      have none : line.reference? = none := by simp [reference?, code]
      rw [renameCode, none]
      exact renamesTo_renameLabel (fun name label => images name (Or.inl label))
  | true =>
      rcases isOperation code with ⟨instruction, read⟩
      rcases readStatement_renameCode images code read with
        ⟨stillCode, first, -⟩
      refine ⟨?_, stillCode.trans code.symm, ?_⟩
      · rw [label?_eq_none_of_isCode code, label?_eq_none_of_isCode stillCode,
          Option.map_none]
      · intro inner
        rwa [isHeader, first]

theorem IsOperation.renameCode (isOperation : IsOperation line) :
    IsOperation (line.renameCode rename) := by
  intro stillCode
  rw [(Line.renamesTo_renameCode images isOperation).code] at stillCode
  rcases isOperation stillCode with ⟨instruction, read⟩
  exact ⟨_, (readStatement_renameCode images stillCode read).2.2⟩

theorem codeSize_renameCode (isOperation : IsOperation line) :
    codeSize (line.renameCode rename) = codeSize line := by
  rw [codeSize, (Line.renamesTo_renameCode images isOperation).code, codeSize]

theorem statementAt?_renameCode (isOperation : IsOperation line) (count : Nat) :
    statementAt? count (line.renameCode rename) =
      (statementAt? count line).map (Statement.rename rename) := by
  have same := (Line.renamesTo_renameCode images isOperation).code
  cases code : line.isCode with
  | false =>
      rw [statementAt?_eq_none code, statementAt?_eq_none (same.trans code),
        Option.map_none]
  | true =>
      rcases isOperation code with ⟨instruction, read⟩
      have renamed := (readStatement_renameCode images code read).2.2
      rw [(statementAt?_eq_some_iff code count _).mpr ⟨instruction, read, rfl⟩,
        (statementAt?_eq_some_iff (same.trans code) count _).mpr
          ⟨_, renamed, rfl⟩]
      rfl

end Code

/-! ## Linking -/

/-- The table with other names for its labels. -/
def SymbolTable.rename (rename : String → String) (table : SymbolTable) :
    SymbolTable :=
  ⟨table.entries.map (Prod.map rename id)⟩

theorem SymbolTable.rename_extend (rename : String → String)
    (table : SymbolTable) (labels : List (String × Nat)) :
    (table.extend labels).rename rename =
      (table.rename rename).extend (labels.map (Prod.map rename id)) := by
  simp [SymbolTable.rename, extend, Function.comp_def]

/-- A label whose new name no other label gets has the address that it had. -/
theorem SymbolTable.lookup_rename {rename : String → String}
    {table : SymbolTable} {label : String}
    (injective : ∀ name ∈ table.names, rename label = rename name →
      label = name) :
    (table.rename rename).lookup (rename label) = table.lookup label := by
  rcases table with ⟨entries⟩
  simp only [SymbolTable.rename, lookup]
  induction entries with
  | nil => rfl
  | cons entry rest ih =>
      rcases List.forall_mem_cons.mp injective with ⟨first, others⟩
      have same : (rename label == rename entry.1) = (label == entry.1) := by
        rw [Bool.eq_iff_iff, beq_iff_eq, beq_iff_eq]
        exact ⟨first, congrArg rename⟩
      rw [List.map_cons, List.lookup_cons, List.lookup_cons, ih others]
      simp only [Prod.map_fst, Prod.map_snd, id_eq, same]

/--
Renaming a label in the statement and in the table does not change how it is
linked.
-/
theorem Statement.link_rename {rename : String → String} {source : String}
    {table : SymbolTable} {statement linked : Statement}
    (written : Written statement.instruction)
    (renamed : Written (renameOperand rename statement.instruction))
    (known : ∀ label, RefersTo statement.instruction label →
      rename label ≠ "" ∧ ∀ name ∈ table.names, rename label = rename name →
      label = name)
    (done : statement.link source table = .ok linked) :
    (statement.rename rename).link source (table.rename rename) =
      .ok (linked.rename rename) := by
  rw [link_eq_ok_iff]
  rcases link_eq_ok_iff.mp done with
    ⟨none, rfl⟩ | ⟨label, address, pending, found, rfl⟩
  · have noLabel : ∀ label, ¬ RefersTo statement.instruction label := by
      intro label operand
      rw [written.pending?_eq_some_iff.mpr operand] at none
      cases none
    refine Or.inl ⟨?_, rfl⟩
    rw [Statement.rename, renameOperand_of_no_label rename written noLabel]
    exact none
  · have operand := written.pending?_eq_some_iff.mp pending
    rcases known label operand with ⟨nonempty, injective⟩
    have replaced := renameOperand_of_label rename written operand
    refine Or.inr ⟨rename label, address, ?_, ?_, ?_⟩
    · apply Written.pending?_eq_some_iff renamed |>.mpr
      rw [Statement.rename, replaced]
      exact ⟨nonempty, rfl⟩
    · rw [SymbolTable.lookup_rename injective, found]
    · rw [Statement.resolve, Statement.rename, replaced]
      rfl

/--
Linked statements have no labels that could be renamed, so they have the words
that they had.
-/
theorem words_renamed {rename : String → String} {data code : List Line}
    {source : String} {linked : List Statement} {words : List Word}
    (laidOut : LaidOut data code) (operates : ∀ line ∈ code, IsOperation line)
    (done :
      (statements code).map (Statement.link source (symbolTable data code)) =
      linked.map .ok)
    (encoded : linked.map (Statement.encode source) = words.map .ok) :
    (linked.map (Statement.rename rename)).map (Statement.encode source) =
      words.map .ok := by
  rw [← List.map_id words]
  apply map_eq_ok_of_step encoded
  intro statement member word encode
  rcases written_of_linked laidOut operates done member with ⟨written, noLabel⟩
  rw [Statement.encode_eq_ok_iff] at encode ⊢
  rw [Statement.rename, renameOperand_of_no_label rename written noLabel]
  exact encode

/-! ## Renamed blocks -/

section Blocks

variable {rename : String → String} {data code : List Line}
  (renames : IsRenaming rename (labelNames data code))

include renames

theorem IsRenaming.renamesTo_data :
    ∀ line ∈ data, line.RenamesTo rename (line.renameLabel rename) := by
  intro line member
  apply Line.renamesTo_renameLabel
  intro name label
  apply renames.images
  simp only [labelNames, declared, List.mem_append, List.mem_filterMap]
  exact Or.inl (Or.inl ⟨line, member, label⟩)

theorem IsRenaming.dataSize_eq :
    ∀ line ∈ data, dataSize (line.renameLabel rename) = dataSize line :=
  fun line member => dataSize_renameLabel (renames.renamesTo_data line member)

theorem allocations_renamed :
    allocations (data.map (Line.renameLabel rename)) = allocations data := by
  have same :
      allocations (data.map (Line.renameLabel rename)) =
        (allocations data).map id := by
    apply yields_map renames.dataSize_eq
    intro line member offset
    rw [allocationAt?_renameLabel (renames.renamesTo_data line member),
      Option.map_id_apply]
  rw [same, List.map_id]

theorem IsRenaming.images_code {line : Line} (member : line ∈ code)
    (label : String) (named : line.label? = some label ∨
      line.reference? = some label) :
    IsReference (rename label) := by
  apply renames.images
  simp only [labelNames, declared, List.mem_append, List.mem_filterMap]
  rcases named with declares | refers
  · exact Or.inl (Or.inr ⟨line, member, declares⟩)
  · exact Or.inr ⟨line, member, refers⟩

variable (operates : ∀ line ∈ code, IsOperation line)

include operates

theorem IsRenaming.renamesTo_code :
    ∀ line ∈ code, line.RenamesTo rename (line.renameCode rename) :=
  fun line member =>
    Line.renamesTo_renameCode (renames.images_code member)
      (operates line member)

theorem IsRenaming.codeSize_eq :
    ∀ line ∈ code, codeSize (line.renameCode rename) = codeSize line :=
  fun line member =>
    codeSize_renameCode (renames.images_code member) (operates line member)

theorem symbolTable_renamed :
    symbolTable (data.map (Line.renameLabel rename))
      (code.map (Line.renameCode rename)) =
      (symbolTable data code).rename rename := by
  have inData := renames.renamesTo_data
  have inCode := renames.renamesTo_code operates
  rw [symbolTable, symbolTable, SymbolTable.rename_extend,
    SymbolTable.rename_extend, declarations_map renames.dataSize_eq
      (fun line member => (inData line member).label),
    declarations_map (renames.codeSize_eq operates)
      (fun line member => (inCode line member).label)]
  rfl

theorem statements_renamed :
    statements (code.map (Line.renameCode rename)) =
      (statements code).map (Statement.rename rename) := by
  apply yields_map (renames.codeSize_eq operates)
  intro line member
  exact statementAt?_renameCode (renames.images_code member)
    (operates line member)

theorem laidOut_renamed (laidOut : LaidOut data code) :
    LaidOut (data.map (Line.renameLabel rename))
      (code.map (Line.renameCode rename)) := by
  have inData := renames.renamesTo_data
  have inCode := renames.renamesTo_code operates
  constructor
  · rw [totalSize_map renames.dataSize_eq]
    exact laidOut.dataFits
  · rw [← totalSize_codeSize, totalSize_map (renames.codeSize_eq operates),
      totalSize_codeSize]
    exact laidOut.codeFits
  · rw [declared_map (fun line member => (inData line member).label),
      declared_map (fun line member => (inCode line member).label),
      ← List.map_append]
    apply laidOut.distinct.map_on
    intro first inFirst second inSecond
    exact renames.injective first (List.mem_append_left _ inFirst) second
      (List.mem_append_left _ inSecond)

theorem linked_renamed {source : String} {linked : List Statement}
    (done :
      (statements code).map (Statement.link source (symbolTable data code)) =
      linked.map .ok) :
    ((statements code).map (Statement.rename rename)).map
        (Statement.link source ((symbolTable data code).rename rename)) =
      (linked.map (Statement.rename rename)).map .ok := by
  apply map_eq_ok_of_step done
  intro statement member result link
  rcases of_mem_statements operates member with ⟨inside, read⟩
  rcases List.mem_filter.mp inside with ⟨inCode, isCode⟩
  have renamed :=
    (readStatement_renameCode (renames.images_code inCode) isCode read).2.2
  apply Statement.link_rename (written_of_readStatement read)
    (written_of_readStatement renamed)
  · intro label operand
    have reference := (Line.reference?_eq_some_iff isCode read).mpr operand
    refine ⟨(renames.images_code inCode label (Or.inr reference)).ne_empty, ?_⟩
    intro name declares
    rw [names_symbolTable] at declares
    apply renames.injective
    · exact List.mem_append_right
        _ (List.mem_filterMap.mpr ⟨_, inCode, reference⟩)
    · exact List.mem_append_left _ declares
  · exact link

end Blocks

/-! ## Renamed sources -/

theorem lastBody_renameLines {rename : String → String} {lines : List Line}
    (renames : IsRenaming rename
      (labelNames (lastBody .readOnly lines) (lastBody .instruction lines)))
    (operates : ∀ line ∈ lastBody .instruction lines, IsOperation line)
    {source : String}
    (read : ∃ sections, Sections.ofLines source lines = .ok sections) :
    lastBody .readOnly (renameLines rename lines) =
        (lastBody .readOnly lines).map (Line.renameLabel rename) ∧
      lastBody .instruction (renameLines rename lines) =
        (lastBody .instruction lines).map (Line.renameCode rename) ∧
      ∃ sections, Sections.ofLines source (renameLines rename lines) =
        .ok sections := by
  have data : ∀ body, lastBody? .readOnly lines = some body →
      ∀ line ∈ body.map (Line.renameLabel rename), line.isHeader = false := by
    intro body found
    rw [List.forall_mem_map]
    intro line member
    apply (renames.renamesTo_data line ?_).inner
    · exact isHeader_of_mem_lastBody? found line member
    · rwa [lastBody, found]
  have kept := lastBody?_withLastBody data .instruction
  rw [if_neg (by decide)] at kept
  have code : ∀ body,
      lastBody? .instruction
        (withLastBody .readOnly (List.map (Line.renameLabel rename)) lines) =
          some body →
      ∀ line ∈ body.map (Line.renameCode rename), line.isHeader = false := by
    intro body found
    rw [kept] at found
    rw [List.forall_mem_map]
    intro line member
    apply (renames.renamesTo_code operates line ?_).inner
    · exact isHeader_of_mem_lastBody? found line member
    · rwa [lastBody, found]
  refine ⟨?_, ?_, ?_⟩
  · rw [renameLines, lastBody_withLastBody_of_ne code (by decide),
      lastBody_withLastBody_self data rfl]
  · rw [renameLines, lastBody_withLastBody_self code rfl,
      lastBody_withLastBody_of_ne data (by decide)]
  · exact exists_ofLines_withLastBody code
      (exists_ofLines_withLastBody data read)

/--
Lines that are assembled are assembled under any other names for their labels,
to the same words, allocations and addresses; the symbol table has the new names
in the places of the old.
-/
theorem assembleLines_renameLines {source : String} {lines : List Line}
    {program : Program} {rename : String → String}
    (assembled : assembleLines source lines = .ok program)
    (renames : IsRenaming rename
      (labelNames (lastBody .readOnly lines) (lastBody .instruction lines))) :
    ∃ renamed, assembleLines source (renameLines rename lines) = .ok renamed ∧
      renamed.words = program.words ∧
      renamed.allocations = program.allocations ∧
      renamed.sourceMap = program.sourceMap ∧
      renamed.statements.map (·.address) = program.statements.map (·.address) ∧
      renamed.symbols.entries =
        program.symbols.entries.map (Prod.map rename id) := by
  rcases (assembleLines_eq_ok_iff rfl rfl).mp assembled with
    ⟨sections, linked, words, read, laidOut, allocates, operates, done,
      encoded, rfl⟩
  rcases lastBody_renameLines renames operates ⟨sections, read⟩ with
    ⟨dataIs, codeIs, others, otherRead⟩
  have symbols := symbolTable_renamed renames operates
  refine ⟨_, (assembleLines_eq_ok_iff dataIs.symm codeIs.symm).mpr
    ⟨others, linked.map (Statement.rename rename), words, otherRead,
      laidOut_renamed renames operates laidOut, ?_, ?_, ?_,
      words_renamed laidOut operates done encoded, rfl⟩,
    rfl, allocations_renamed renames, ?_, ?_,
    congrArg SymbolTable.entries symbols⟩
  · rw [List.forall_mem_map]
    intro line member
    exact (allocates line member).renameLabel
      (renames.renamesTo_data line member)
  · rw [List.forall_mem_map]
    intro line member
    exact (operates line member).renameCode (renames.images_code member)
  · rw [statements_renamed renames operates, symbols]
    exact linked_renamed renames operates done
  · simp [Program.sourceMap, Statement.rename]
  · simp [Statement.rename]

/-- Names that change places, one of them an operation with a flag. -/
def exchange (label : String) : String :=
  if label = "END" then "TABLE" else "MOVS"

theorem assembleLines_exchanged :
    IsRenaming exchange ["TABLE", "END", "END", "TABLE", "END"] ∧
    renameLines exchange referringLines =
      [⟨1, ".SECTION READ-ONLY"⟩, ⟨2, ".ARR 3"⟩, ⟨3, "MOVS:"⟩, ⟨4, ".INT 7"⟩,
        ⟨5, ".SECTION INSTRUCTION"⟩, ⟨6, "BAL TABLE"⟩, ⟨7, "LDR R1, MOVS"⟩,
        ⟨8, "TABLE:"⟩, ⟨9, "BAL TABLE"⟩] ∧
    ∃ program renamed, assembleLines "loop.asm" referringLines = .ok program ∧
      assembleLines "loop.asm" (renameLines exchange referringLines) =
        .ok renamed ∧
      renamed.words = program.words ∧
      renamed.symbols.entries = [("MOVS", 0x403), ("TABLE", 0x602)] := by
  have labels : labelNames (lastBody .readOnly referringLines)
      (lastBody .instruction referringLines) =
        ["TABLE", "END", "END", "TABLE", "END"] := by decide
  have renames : IsRenaming exchange ["TABLE", "END", "END", "TABLE", "END"] :=
    ⟨by decide, by unfold IsReference; decide⟩
  refine ⟨renames, by decide, ?_⟩
  rcases (⟨_, rfl, rfl⟩ : ∃ program, assembleLines "loop.asm" referringLines =
    .ok program ∧
    program.symbols.entries = [("TABLE", 0x403), ("END", 0x602)]) with
      ⟨program, assembled, entries⟩
  rw [← labels] at renames
  rcases assembleLines_renameLines assembled renames with
    ⟨renamed, again, words, -, -, -, symbols⟩
  rw [entries] at symbols
  exact ⟨program, renamed, assembled, again, words, symbols⟩

end Asm24.Assembly
