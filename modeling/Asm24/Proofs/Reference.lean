import Asm24.Proofs.Appending
import Asm24.Proofs.Renaming

/-!
# Labels that a branch can reach

A line that declares a label admits any name, but an operand is tried as a
register first and is no label if it names an operation.  So some labels can be
declared and never be reached.

This module puts a branch to a declared label at the end of a program.
`branch_to_label` says for which names the branch goes to the label, for which
it silently goes through a register, and that for all others it is refused.
-/

namespace Asm24.Assembly

open Asm24.Machine
open Asm24.Proofs

/-! ## Names of labels -/

/--
The labels of a symbol table have the form of labels, and addresses at which
they stand.
-/
theorem declaredAt_of_lookup {source : String} {lines : List Line}
    {program : Program} (assembled : assembleLines source lines = .ok program)
    {name : String} {address : Address}
    (known : program.symbols.lookup name = some address) :
    DeclaredAt (lastBody .readOnly lines) (lastBody .instruction lines) name
      address.toNat := by
  rwa [(tables_of_assembleLines assembled).1,
    lookup_symbolTable_iff (laidOut_of_assembleLines assembled)] at known

theorem isLabelName_of_declaredAt {data code : List Line} {name : String}
    {address : Nat} (declaredAt : DeclaredAt data code name address) :
    Token.isLabelName name.toList = true := by
  rcases declaredAt with ⟨_, _, _, -, label, -⟩ | ⟨_, _, _, -, label, -⟩
  · exact (Line.label?_eq_some_iff.mp label).1
  · exact (Line.label?_eq_some_iff.mp label).1

/-! ## The words of a branch -/

section Name

variable {name : String} (isName : Token.isLabelName name.toList = true)

include isName

theorem isReference_iff :
    IsReference name ↔
      Token.isRegisterOperand name.toList = false ∧
        Token.isMnemonic name.toList = false := by
  rw [IsReference, Token.isLabelImmediate, isName, Bool.true_and,
    Bool.not_eq_true']

/--
A label has no comma, so that it is a register only if it is the name of one.
-/
theorem isRegisterToken_iff {register : Register} :
    IsRegisterToken name register ↔ Register.ofAlias? name = some register := by
  constructor
  · rintro ⟨spelling, found, rfl | rfl⟩
    · exact found
    · exact absurd (isLabelChar_of_isLabelName isName ',' (by simp)) (by decide)
  · intro found
    exact ⟨name, found, Or.inl rfl⟩

/-- The line of a branch holds code and two words. -/
theorem branch_line {line : Line} (text : line.text = "BAL " ++ name) :
    line.tokens = ["BAL", name] ∧ line.isCode = true ∧
      line.isHeader = false := by
  have spaced : line.text.toList = Text.spaced ["BAL".toList, name.toList] := by
    rw [text, String.toList_append, Text.spaced_cons (by simp),
      Text.spaced_singleton]
    rfl
  have chars : line.text.toList = 'B' :: 'A' :: 'L' :: ' ' :: name.toList := by
    rw [text, String.toList_append]
    rfl
  have words : ∀ piece ∈ ["BAL".toList, name.toList], Text.IsWord piece :=
    List.forall_mem_cons.mpr
      ⟨⟨by decide, by simp [Text.isBlank]⟩,
        List.forall_mem_singleton.mpr (isWord_of_isLabelName isName)⟩
  have tokens : line.tokens = ["BAL", name] := by
    rw [Line.tokens, spaced, Text.words_spaced words]
    simp
  have noLabel : Token.isLabelLine line.text.toList = false :=
    isLabelLine_of_isBlank (show ' ' ∈ _ by simp [chars]) (by decide)
  have noComment : Token.isComment line.text.toList = false := by
    rw [chars]
    rfl
  have visible : Token.isBlankLine line.text.toList = false := by
    rw [chars]
    rfl
  refine ⟨tokens, ?_, ?_⟩
  · rw [Line.isCode, noLabel, visible, noComment]
    rfl
  · rw [Line.isHeader, tokens]
    rfl

omit isName in
theorem isOperator_branch : IsOperator "BAL" .bal .none := by
  refine ⟨[], rfl, List.nodup_nil, by simp, ?_⟩
  intro flag
  cases flag <;> simp [FlagSet.none, FlagSet.has]

omit isName in
/-- A word that is no register is refused as one. -/
theorem readRegister_eq_error {word : String}
    (unknown : ∀ register, ¬ IsRegisterToken word register) :
    ∃ fault, readRegister word = .error fault ∧ fault.kind = .registers := by
  cases read : readRegister word with
  | ok register =>
      exact absurd (readRegister_eq_ok_iff.mp read) (unknown register)
  | error fault =>
      refine ⟨fault, rfl, ?_⟩
      simp only [readRegister] at read
      split at read
      case isFalse =>
        cases read
        rfl
      case isTrue =>
        split at read
        case h_1 => cases read
        case h_2 =>
          cases read
          rfl

omit isName in
theorem readStatement_branch_of_reference (reference : IsReference name) :
    readStatement ["BAL", name] =
      .ok (ofNumber .bal .none none (.ofLabel name)) :=
  readStatement_iff_writes.mpr (@Writes.number "BAL" name [] .bal .none []
    _ isOperator_branch rfl .nil (.label reference))

omit isName in
theorem readStatement_branch_of_alias {register : Register}
    (found : Register.ofAlias? name = some register) :
    readStatement ["BAL", name] = .ok (ofRegisters .bal .none [register]) :=
  readStatement_iff_writes.mpr (.registers isOperator_branch rfl
    (.cons ⟨name, found, Or.inl rfl⟩ .nil))

/-- A name that is reserved but is no register is refused as an operand. -/
theorem readStatement_branch_of_unknown
    (excluded : Token.isRegisterOperand name.toList = true ∨
      Token.isMnemonic name.toList = true)
    (unknown : Register.ofAlias? name = none) :
    ∃ fault, readStatement ["BAL", name] = .error fault ∧
      fault.kind = .registers := by
  have noRegister : ∀ register, ¬ IsRegisterToken name register := by
    intro register token
    rw [isRegisterToken_iff isName, unknown] at token
    cases token
  have shape : isImmediateLine ["BAL", name] = false := by
    change isImmediateLine (["BAL"] ++ [name]) = false
    rw [isImmediateLine_concat]
    rcases excluded with form | mnemonic
    · simp [Token.isImmediate, Token.isLabelImmediate, form,
        isNumericImmediate_of_isRegisterOperand form]
    · rw [mnemonic, Bool.not_true, Bool.and_false]
  rcases readRegister_eq_error noRegister with ⟨fault, refused, kind⟩
  refine ⟨fault, ?_, kind⟩
  rw [readStatement, readInstruction_cons isOperator_branch, shape]
  simp only [readRegisterOperands, refused]
  rfl

end Name

/-- A word has one shape only. -/
theorem encode_ofNumber_ne_ofRegisters {mnemonic other : Mnemonic}
    {flags otherFlags : FlagSet} {destination : Option Register}
    {immediate : Immediate} {registers : List Register} {word : Word}
    (encoded : (ofNumber mnemonic flags destination immediate).encode =
      .ok word) :
    (ofRegisters other otherFlags registers).encode ≠ .ok word := by
  intro otherEncoded
  have same :=
    (Instruction.encode_eq_iff_materialized_eq encoded otherEncoded).mp rfl
  cases congrArg Instruction.shape same

/-! ## A branch at the end of a program -/

section Branch

variable {source : String} {lines edited : List Line} {program : Program}
  {name : String} {address : Address}
  (assembled : assembleLines source lines = .ok program)
  (opened : ∃ line ∈ lines, line.IsHeaderOf .instruction)
  (known : program.symbols.lookup name = some address)
  (appends : AppendsCode ("BAL " ++ name) lines edited)

include assembled opened known appends

/-- The branch is the last line of the last block of code. -/
theorem exists_branch :
    ∃ front last, Appended lines edited front last ∧
      last.tokens = ["BAL", name] ∧
      ∃ sections, Sections.ofLines source edited = .ok sections := by
  have isName :=
    isLabelName_of_declaredAt (declaredAt_of_lookup assembled known)
  rcases @branch_line name isName ⟨0, "BAL " ++ name⟩ rfl with
    ⟨-, isCode, inner⟩
  rcases exists_appended appends inner isCode opened with
    ⟨front, last, appended, text⟩
  rcases (assembleLines_eq_ok_iff rfl rfl).mp assembled with
    ⟨sections, _, _, read, -⟩
  exact ⟨front, last, appended, (branch_line isName text).1,
    exists_ofLines_of_appends appends inner ⟨sections, read⟩⟩

/--
A branch that can be read is accepted, with the word of what it is resolved to.
-/
theorem exists_extended (room : program.words.length < 0x9FF)
    {instruction resolved : Instruction}
    (written : readStatement ["BAL", name] = .ok instruction)
    (operand : ∀ label, RefersTo instruction label → label = name)
    (becomes : Resolved (lastBody .readOnly lines) (lastBody .instruction lines)
      instruction resolved) :
    ∃ more word, assembleLines source edited = .ok more ∧
      program.ExtendedBy more word ∧
      resolved.encode = .ok word := by
  rcases exists_branch assembled opened known appends with
    ⟨front, last, appended, tokens, read⟩
  rw [← tokens] at written
  have declared : ∀ label, RefersTo instruction label →
      ∃ place, program.symbols.lookup label = some place := by
    intro label refers
    exact ⟨address, operand label refers ▸ known⟩
  rcases exists_assembleLines_appended appended assembled read room written
    declared with
    ⟨more, assembledMore⟩
  rcases extended_of_assembleLines appended assembled assembledMore with
    ⟨same, otherResolved, word, sameWritten, otherBecomes, encoded, extended⟩
  rw [written] at sameWritten
  cases sameWritten
  rw [← becomes.unique (laidOut_of_assembleLines assembled)
    otherBecomes] at encoded
  exact ⟨more, word, assembledMore, extended, encoded⟩

theorem branch_reaches (room : program.words.length < 0x9FF)
    (reference : IsReference name) :
    ∃ more word, assembleLines source edited = .ok more ∧
      program.ExtendedBy more word ∧
      (ofNumber .bal .none none (.ofValue address.toNat)).encode =
        .ok word := by
  have refers : RefersTo (ofNumber .bal .none none (.ofLabel name)) name :=
    ⟨reference.ne_empty, rfl⟩
  have becomes := Resolved.label refers (declaredAt_of_lookup assembled known)
  refine exists_extended assembled opened known appends room
    (readStatement_branch_of_reference reference) ?_ becomes
  intro label other
  exact (congrArg Immediate.label other.2).symm

theorem branch_takes_register (room : program.words.length < 0x9FF)
    {register : Register} (found : Register.ofAlias? name = some register) :
    ∃ more word, assembleLines source edited = .ok more ∧
      program.ExtendedBy more word ∧
      (ofRegisters .bal .none [register]).encode = .ok word := by
  have noLabel :
      ∀ label, ¬ RefersTo (ofRegisters .bal .none [register]) label := by
    rintro label ⟨-, same⟩
    cases same
  exact exists_extended assembled opened known appends room
    (readStatement_branch_of_alias found)
    (fun label refers => absurd refers (noLabel label)) (.plain noLabel)

theorem branch_refused
    (excluded : Token.isRegisterOperand name.toList = true ∨
      Token.isMnemonic name.toList = true)
    (unknown : Register.ofAlias? name = none) :
    ∃ fault last, assembleLines source edited =
      .error (.refused ⟨fault, last, source⟩) ∧
      fault.kind = .registers ∧ (lastBody .instruction edited).getLast? =
        some last := by
  have isName :=
    isLabelName_of_declaredAt (declaredAt_of_lookup assembled known)
  rcases exists_branch assembled opened known appends with
    ⟨front, last, appended, tokens, read⟩
  rcases readStatement_branch_of_unknown isName excluded unknown with
    ⟨fault, refused, kind⟩
  rw [← tokens] at refused
  refine ⟨fault, last, assembleLines_refused appended assembled read refused,
    kind, ?_⟩
  rw [appended.body, List.getLast?_concat]

end Branch

/--
A branch to a declared label is put at the end of a program that has room for
it.  It goes to the address of the label exactly if the name has neither the
form of a register nor is an operation.  If the name is that of a register, the
branch goes through the register.  In all other cases it is refused for its
register operand.  What was there before stays, whenever the branch is accepted.
-/
theorem branch_to_label {source : String} {lines edited : List Line}
    {program : Program} {name : String} {address : Address}
    (assembled : assembleLines source lines = .ok program)
    (opened : ∃ line ∈ lines, line.IsHeaderOf .instruction)
    (room : program.words.length < 0x9FF)
    (known : program.symbols.lookup name = some address)
    (appends : AppendsCode ("BAL " ++ name) lines edited) :
    ((∃ more word, assembleLines source edited = .ok more ∧
      program.ExtendedBy more word ∧
        (ofNumber .bal .none none (.ofValue address.toNat)).encode = .ok word) ↔
      Token.isRegisterOperand name.toList = false ∧
        Token.isMnemonic name.toList = false) ∧
    (∀ register, Register.ofAlias? name = some register →
      ∃ more word, assembleLines source edited = .ok more ∧
        program.ExtendedBy more word ∧
        (ofRegisters .bal .none [register]).encode = .ok word) ∧
    (Token.isRegisterOperand name.toList = true ∨
      Token.isMnemonic name.toList = true →
      Register.ofAlias? name = none →
      ∃ fault last, assembleLines source edited =
        .error (.refused ⟨fault, last, source⟩) ∧
        fault.kind = .registers ∧ (lastBody .instruction edited).getLast? =
          some last) ∧
    ∀ more, assembleLines source edited = .ok more →
      ∃ word, program.ExtendedBy more word := by
  have isName :=
    isLabelName_of_declaredAt (declaredAt_of_lookup assembled known)
  refine ⟨?_, ?_, branch_refused assembled opened known appends, ?_⟩
  · rw [← isReference_iff isName]
    refine ⟨?_, branch_reaches assembled opened known appends room⟩
    rintro ⟨more, word, assembledMore, extended, encoded⟩
    by_contra excluded
    rw [isReference_iff isName, not_and_or, Bool.not_eq_false,
      Bool.not_eq_false] at excluded
    cases found : Register.ofAlias? name with
    | none =>
        rcases branch_refused assembled opened known appends excluded found with
          ⟨fault, last, refused, -⟩
        rw [assembledMore] at refused
        cases refused
    | some register =>
        rcases branch_takes_register assembled opened known appends room
          found with
          ⟨same, other, assembledSame, extendedSame, encodedOther⟩
        rw [assembledMore] at assembledSame
        cases assembledSame
        have words := extended.words.symm.trans extendedSame.words
        cases List.append_cancel_left words
        exact encode_ofNumber_ne_ofRegisters encoded encodedOther
  · intro register found
    exact branch_takes_register assembled opened known appends room found
  · intro more assembledMore
    rcases exists_branch assembled opened known appends with
      ⟨front, last, appended, -⟩
    rcases extended_of_assembleLines appended assembled assembledMore with
      ⟨_, _, word, -, -, -, extended⟩
    exact ⟨word, extended⟩

/--
Lines that declare an ordinary label, a register and an operation, with data
behind the code.
-/
def declaringLines : List Line :=
  [⟨1, ".SECTION INSTRUCTION"⟩, ⟨2, "LOOP:"⟩, ⟨3, "SP:"⟩, ⟨4, "ADD:"⟩,
    ⟨5, "DON"⟩, ⟨6, ".SECTION READ-ONLY"⟩, ⟨7, ".INT 1"⟩]

/-- The same lines with a branch behind the code. -/
def branchingLines (name : String) : List Line :=
  [⟨1, ".SECTION INSTRUCTION"⟩, ⟨2, "LOOP:"⟩, ⟨3, "SP:"⟩, ⟨4, "ADD:"⟩,
    ⟨5, "DON"⟩, ⟨6, "BAL " ++ name⟩, ⟨7, ".SECTION READ-ONLY"⟩, ⟨8, ".INT 1"⟩]

theorem branch_to_declared :
    ∃ program, assembleLines "loop.asm" declaringLines = .ok program ∧
      program.symbols.entries =
        [("LOOP", 0x600), ("SP", 0x600), ("ADD", 0x600)] ∧
      (∃ more word, assembleLines "loop.asm" (branchingLines "LOOP") =
        .ok more ∧
        program.ExtendedBy more word ∧
        (ofNumber .bal .none none (.ofValue 0x600)).encode = .ok word) ∧
      (∃ more word, assembleLines "loop.asm" (branchingLines "SP") = .ok more ∧
        program.ExtendedBy more word ∧
        (ofRegisters .bal .none [⟨12⟩]).encode = .ok word) ∧
      ∃ fault last,
        assembleLines "loop.asm" (branchingLines "ADD") =
          .error (.refused ⟨fault, last, "loop.asm"⟩) ∧
        fault.kind = .registers ∧
        (lastBody .instruction (branchingLines "ADD")).getLast? =
          some last := by
  rcases (⟨_, rfl, rfl, rfl⟩ : ∃ program,
    assembleLines "loop.asm" declaringLines = .ok program ∧
      program.words = [0x000000] ∧
      program.symbols.entries =
        [("LOOP", 0x600), ("SP", 0x600), ("ADD", 0x600)]) with
    ⟨program, assembled, words, entries⟩
  have opened : ∃ line ∈ declaringLines, line.IsHeaderOf .instruction :=
    ⟨⟨1, ".SECTION INSTRUCTION"⟩, by simp [declaringLines], by decide⟩
  have room : program.words.length < 0x9FF := by
    rw [words]
    decide
  have appends (name : String) :
      AppendsCode ("BAL " ++ name) declaringLines (branchingLines name) :=
    rfl
  have loop : program.symbols.lookup "LOOP" = some 0x600 := by
    rw [SymbolTable.lookup, entries]
    rfl
  have stack : program.symbols.lookup "SP" = some 0x600 := by
    rw [SymbolTable.lookup, entries]
    rfl
  have sum : program.symbols.lookup "ADD" = some 0x600 := by
    rw [SymbolTable.lookup, entries]
    rfl
  exact ⟨program, assembled, entries,
    (branch_to_label assembled opened room loop (appends "LOOP")).1.mpr
      ⟨by decide, by decide⟩,
    (branch_to_label assembled opened room stack (appends "SP")).2.1 ⟨12⟩ rfl,
    (branch_to_label assembled opened room sum (appends "ADD")).2.2.1
      (Or.inr (by decide)) rfl⟩

end Asm24.Assembly
