import Asm24.Proofs.Layout
import Asm24.Proofs.Spelling
import Mathlib.Data.List.Forall2

/-!
# Lines of a listing

The text of an instruction is its words with a space between any two.  As a line
of source text it is put in upper case, which changes only the mark of a number,
and its words are then read back.  So the line of a word holds code, opens no
section, and writes an instruction with that word.
-/

namespace Asm24.Assembly

open Asm24.Machine
open Asm24.Proofs

/-! ## Texts -/

theorem commaed_ne_nil {operands : List (List Char)} (some : operands ≠ []) :
    commaed operands ≠ [] := by
  obtain ⟨first, rest, rfl⟩ := List.exists_cons_of_ne_nil some
  cases rest <;> simp [commaed]

theorem spaced_commaed (operands : List (List Char)) :
    Text.spaced (commaed operands) = [',', ' '].intercalate operands := by
  induction operands with
  | nil => rfl
  | cons first rest ih =>
      cases rest with
      | nil => simp [commaed]
      | cons second rest =>
          rw [commaed, Text.spaced_cons (commaed_ne_nil (by simp)), ih,
            List.intercalate_cons_cons]
          simp

/-- The text of an instruction is its words with spaces between them. -/
theorem toList_render {instruction : Instruction} {mnemonic : Mnemonic}
    (operation : instruction.mnemonic? = some mnemonic) :
    instruction.render.toList =
      Text.spaced
        (spelling mnemonic instruction.flags
          (instruction.operandTexts.map String.toList)) := by
  have operator : instruction.operationName ++ instruction.flags.render =
      String.ofList (operatorText mnemonic instruction.flags) := by
    simp [Instruction.operationName, operation, FlagSet.render, operatorText]
  rw [Instruction.render, spelling]
  simp only [operator]
  cases texts : instruction.operandTexts with
  | nil => simp [commaed]
  | cons first rest =>
      rw [Text.spaced_cons (commaed_ne_nil (by simp)), spaced_commaed]
      simp [String.toList_intercalate]

/--
The texts of the operands of register shape are the names of the registers.
Empty slots that are filled with register zero are not shown.
-/
theorem operandTexts_registers {mnemonic : Mnemonic} {flags : FlagSet}
    {registers : List Register}
    (count : registers.length = mnemonic.operands.register) :
    (ofRegisters mnemonic flags registers).operandTexts =
      registers.map Register.name ∧
      (ofRegisters mnemonic flags registers).materialized.operandTexts =
        registers.map Register.name := by
  have short : registers.length ≤ 3 := count ▸ register_operands_le mnemonic
  have operands :
      (ofRegisters mnemonic flags registers).operands = mnemonic.operands := by
    simp [Instruction.operands, mnemonic?_ofRegisters]
  have filledOperands :
      (ofRegisters mnemonic flags registers).materialized.operands =
      mnemonic.operands :=
    operands
  rw [Instruction.operandTexts, Instruction.operandTexts, operands,
    filledOperands]
  rcases registers with
    _ | ⟨first, _ | ⟨second, _ | ⟨third, _ | ⟨fourth, rest⟩⟩⟩⟩
  case cons.cons.cons.cons =>
    simp only [List.length_cons] at short
    omega
  all_goals
    simp [ofRegisters, Instruction.materialized,
      Instruction.materializedRegister, Grammar.count, ← count]

/-- What the machine sees of a number is shown in the same way. -/
theorem render_materializedImmediate {immediate : Immediate}
    (present : immediate.present = true) :
    (Instruction.materializedImmediate immediate).present = true ∧
      (Instruction.materializedImmediate immediate).render =
        immediate.render := by
  unfold Instruction.materializedImmediate
  by_cases noLabel : immediate.label = ""
  · simp [present, noLabel, Immediate.render, Immediate.unlinked]
  · simp [present, noLabel]

/--
The texts of the operands of immediate shape are the name of the register and
the number.
-/
theorem operandTexts_number {mnemonic : Mnemonic} {flags : FlagSet}
    {destination : Option Register} {immediate : Immediate}
    (count : destination.isSome.toNat + 1 = mnemonic.operands.immediate)
    (present : immediate.present = true) :
    (ofNumber mnemonic flags destination immediate).operandTexts =
        destination.toList.map Register.name ++ [immediate.render] ∧
      (ofNumber mnemonic flags destination
        immediate).materialized.operandTexts =
        destination.toList.map Register.name ++ [immediate.render] := by
  have operands : (ofNumber mnemonic flags destination immediate).operands =
      mnemonic.operands := by
    simp [Instruction.operands, mnemonic?_ofNumber]
  have filledOperands :
      (ofNumber mnemonic flags destination immediate).materialized.operands =
      mnemonic.operands :=
    operands
  have filled := render_materializedImmediate present
  rw [Instruction.operandTexts, Instruction.operandTexts, operands,
    filledOperands]
  cases destination with
  | none =>
      simp [ofNumber, Instruction.materialized, Grammar.count, ← count,
        present, filled]
  | some register =>
      simp [ofNumber, Instruction.materialized,
        Instruction.materializedRegister, Grammar.count, ← count,
        present, filled]

theorem IsNumber.present {immediate : Immediate}
    (isNumber : IsNumber immediate) :
    immediate.present = true := by
  rcases isNumber with ⟨label, -, rfl⟩ | ⟨value, -, -, rfl⟩
  · rfl
  · rfl

/-- A written instruction has the text that its word shows. -/
theorem Written.render_materialized {instruction : Instruction}
    (written : Written instruction) :
    instruction.materialized.render = instruction.render := by
  have same :
      instruction.materialized.operandTexts = instruction.operandTexts := by
    cases written with
    | registers supported count =>
        rw [(operandTexts_registers count).1, (operandTexts_registers count).2]
    | number supported count fits isNumber =>
        rw [(operandTexts_number count isNumber.present).1,
          (operandTexts_number count isNumber.present).2]
  rw [Instruction.render, Instruction.render, same]
  rcases instruction with ⟨opcode, _ | _⟩ <;> rfl

/-- The text of an instruction of register shape. -/
theorem render_registers {mnemonic : Mnemonic} {flags : FlagSet}
    {registers : List Register}
    (count : registers.length = mnemonic.operands.register) :
    (ofRegisters mnemonic flags registers).render =
      String.ofList (Text.spaced
        (spelling mnemonic flags (registers.map (·.name.toList)))) := by
  rw [← String.toList_inj, String.toList_ofList,
    toList_render (mnemonic?_ofRegisters mnemonic flags registers),
    (operandTexts_registers count).1, List.map_map]
  rfl

/-- The text of an instruction of immediate shape. -/
theorem render_number {mnemonic : Mnemonic} {flags : FlagSet}
    {destination : Option Register} {immediate : Immediate}
    (count : destination.isSome.toNat + 1 = mnemonic.operands.immediate)
    (present : immediate.present = true) :
    (ofNumber mnemonic flags destination immediate).render =
      String.ofList (Text.spaced (spelling mnemonic flags
        (destination.toList.map (·.name.toList) ++
          [immediate.render.toList]))) := by
  rw [← String.toList_inj, String.toList_ofList,
    toList_render (mnemonic?_ofNumber mnemonic flags destination immediate),
    (operandTexts_number count present).1, List.map_append, List.map_map,
    List.map_singleton]
  rfl

theorem render_ofValue (value : Int) :
    (Immediate.ofValue value).render.toList =
      shownNumber (value % 4096).toNat := by
  simp [Immediate.ofValue, Immediate.render, Immediate.unlinked, shownNumber]

/-! ## Lines -/

theorem upperCase_spaced (pieces : List (List Char)) :
    Text.upperCase (Text.spaced pieces) =
      Text.spaced (pieces.map Text.upperCase) := by
  have space : Text.upper ' ' = ' ' := by decide +kernel
  induction pieces with
  | nil => rfl
  | cons first rest ih =>
      by_cases none : rest = []
      · simp [none]
      · rw [Text.spaced_cons none, List.map_cons,
          Text.spaced_cons (by simpa using none), ← ih]
        simp [Text.upperCase, space]

theorem map_upperCase_commaed (operands : List (List Char)) :
    (commaed operands).map Text.upperCase =
      commaed (operands.map Text.upperCase) := by
  have comma : Text.upper ',' = ',' := by decide +kernel
  induction operands with
  | nil => rfl
  | cons first rest ih =>
      cases rest with
      | nil => rfl
      | cons second rest =>
          rw [commaed, List.map_cons, ih]
          simp [commaed, Text.upperCase, comma]

/-- An operator is made of capital letters. -/
theorem isCapital_operatorText (mnemonic : Mnemonic) (flags : FlagSet) :
    IsCapital (operatorText mnemonic flags) := by
  have name : mnemonic.name.toList ≠ [] ∧
      mnemonic.name.toList.all isCapital = true := by
    cases mnemonic <;> decide
  have letters : flags.letters.all isCapital = true := by
    rcases flags with ⟨_ | _, _ | _⟩ <;> decide
  refine ⟨by simp [operatorText, name.1], ?_⟩
  rw [operatorText, List.all_append, name.2, letters]
  rfl

section Spelled

variable {mnemonic : Mnemonic} {flags : FlagSet} {operands : List (List Char)}
  (listed : ∀ operand ∈ operands, IsListed operand)

include listed

theorem isListed_spelling :
    ∀ piece ∈ spelling mnemonic flags operands, IsListed piece := by
  rw [spelling, List.forall_mem_cons]
  refine ⟨(isCapital_operatorText mnemonic flags).isListed,
    forall_mem_commaed ?_ listed⟩
  intro word wordListed
  refine ⟨by simp, ?_⟩
  rw [List.all_append, wordListed.2]
  rfl

/--
As a line of source text, the words of an instruction are put in upper case.
-/
theorem normalize_spelling :
    Line.normalize (Text.spaced (spelling mnemonic flags operands)) =
      Text.spaced (spelling mnemonic flags (operands.map Text.upperCase)) := by
  have operator :
      Text.upperCase (operatorText mnemonic flags) =
        operatorText mnemonic flags :=
    upperCase_eq_self (isCapital_operatorText mnemonic flags).2
  rw [Line.normalize,
    Text.trim_spaced (fun piece member =>
      (isListed_spelling listed piece member).isWord),
    upperCase_spaced, spelling, List.map_cons, operator, map_upperCase_commaed,
    spelling]

/-- The text of an instruction has neither a colon nor a line feed. -/
theorem mem_spaced_spelling {char : Char}
    (member : char ∈ Text.spaced (spelling mnemonic flags operands)) :
    char ≠ ':' ∧ char ≠ '\n' := by
  rcases Text.mem_spaced member with rfl | ⟨piece, inSpelling, inPiece⟩
  · decide
  · have inListed :=
      List.all_eq_true.mp (isListed_spelling listed piece inSpelling).2
        char inPiece
    constructor
    · rintro rfl
      cases inListed
    · rintro rfl
      cases inListed

omit listed in
/-- The text of an instruction starts with a capital letter. -/
theorem spaced_spelling_eq_cons (mnemonic : Mnemonic) (flags : FlagSet)
    (operands : List (List Char)) :
    ∃ first rest,
      Text.spaced (spelling mnemonic flags operands) = first :: rest ∧
        first.isUpper = true := by
  obtain ⟨first, second, third, name, upper, -⟩ := name_eq mnemonic
  have starts :
      operatorText mnemonic flags =
        first :: second :: third :: flags.letters := by
    rw [operatorText, name]
    rfl
  by_cases none : commaed operands = []
  · exact ⟨first, _, by rw [spelling, none, Text.spaced_singleton, starts],
      upper⟩
  · exact ⟨first, _, by rw [spelling, Text.spaced_cons none, starts]; rfl,
      upper⟩

/--
A line that holds the words of an instruction holds code and opens no section.
-/
theorem spelled_line {line : Line}
    (text : line.text.toList = Text.spaced (spelling mnemonic flags operands)) :
    line.tokens = (spelling mnemonic flags operands).map String.ofList ∧
      line.isCode = true ∧ line.isHeader = false := by
  have pieces : ∀ piece ∈ spelling mnemonic flags operands, IsListed piece :=
    isListed_spelling listed
  have tokens :
      line.tokens = (spelling mnemonic flags operands).map String.ofList := by
    rw [Line.tokens, text,
      Text.words_spaced (fun piece member => (pieces piece member).isWord)]
  obtain ⟨first, rest, starts, upper⟩ :=
    spaced_spelling_eq_cons mnemonic flags operands
  have noLabel : Token.isLabelLine line.text.toList = false := by
    rw [Token.isLabelLine, Bool.and_eq_false_iff]
    left
    rw [beq_eq_false_iff_ne]
    intro last
    rw [text] at last
    exact (mem_spaced_spelling listed (List.mem_of_getLast? last)).1 rfl
  have notBlank : Token.isBlankLine line.text.toList = false := by
    rw [Bool.eq_false_iff]
    intro blank
    rw [Token.isBlankLine, ← Text.words_eq_nil_iff, text,
      Text.words_spaced (fun piece member =>
        (pieces piece member).isWord)] at blank
    cases blank
  have noComment : Token.isComment line.text.toList = false := by
    rw [text, starts]
    unfold Token.isComment
    split
    case h_1 same =>
      cases same
      cases upper
    case h_2 same =>
      cases same
      cases upper
    case h_3 => rfl
  refine ⟨tokens, by simp [Line.isCode, noLabel, notBlank, noComment], ?_⟩
  rw [Line.isHeader, tokens, beq_eq_false_iff_ne]
  intro header
  obtain ⟨head, second, third, name, headUpper, -⟩ := name_eq mnemonic
  have operator := congrArg String.toList (Option.some.inj header)
  rw [String.toList_ofList, operatorText, name] at operator
  have dot : head = '.' := (List.cons.inj operator).1
  rw [dot] at headUpper
  cases headUpper

end Spelled

/-! ## Words -/

/-- The word of an instruction that is written without a label. -/
def IsStatic (word : Word) : Prop :=
  ∃ instruction, Written instruction ∧ (∀ label, ¬ RefersTo instruction label) ∧
    instruction.encode = .ok word

theorem isCapital_name {register : Register} (fits : register.index < 16) :
    IsCapital register.name.toList := by
  have every : ∀ index : Fin 16, (Register.name ⟨index⟩).toList ≠ [] ∧
      (Register.name ⟨index⟩).toList.all isCapital = true := by decide
  exact every ⟨register.index, fits⟩

theorem all_isCapital_hexUpper (width value : Nat) :
    (Text.hexUpper width value).toList.all isCapital = true := by
  have every : ∀ digit < 16, isCapital (Text.hexDigit digit) = true := by decide
  rw [List.all_eq_true]
  intro char member
  obtain ⟨digit, small, rfl⟩ := Text.mem_hexUpper member
  exact every digit small

/--
A number is shown by listed characters, and its upper case is the form that is
read.
-/
theorem isListed_shownNumber (value : Nat) :
    IsListed (shownNumber value) ∧
      Text.upperCase (shownNumber value) = numberText value := by
  have digits := all_isCapital_hexUpper 1 value
  constructor
  · refine ⟨by simp [shownNumber], ?_⟩
    rw [List.all_eq_true] at digits ⊢
    intro char member
    simp only [shownNumber, List.mem_cons] at member
    rcases member with rfl | rfl | rfl | digit
    · decide
    · decide
    · decide
    · simp [isListed, digits char digit]
  · have start : Text.upperCase ['#', '0', 'x'] = ['#', '0', 'X'] := by
      decide +kernel
    change
      Text.upperCase (['#', '0', 'x'] ++ (Text.hexUpper 1 value).toList) = _
    rw [Text.upperCase, List.map_append]
    exact congrArg₂ (· ++ ·) start (upperCase_eq_self digits)

/-- Numbers that agree in twelve bits give an instruction the same word. -/
theorem encode_ofNumber_mod {mnemonic : Mnemonic} {flags : FlagSet}
    {destination : Option Register} {value : Int} {word : Word}
    (encoded : (ofNumber mnemonic flags destination (.ofValue value)).encode =
      .ok word) :
    (ofNumber mnemonic flags destination
      (.ofValue (value % 4096).toNat)).encode = .ok word := by
  obtain ⟨encodable, bits⟩ := (Instruction.encode_eq_ok_iff _ _).mp encoded
  have low : (0 : Int) ≤ (value % 4096).toNat := by omega
  have high : ((value % 4096).toNat : Int) ≤ 4095 := by omega
  have same : ((value % 4096).toNat : Int) % 4096 = value % 4096 := by omega
  rw [Instruction.encode_eq_ok_iff, ← bits]
  refine ⟨⟨encodable.opcode, encodable.destination, trivial, trivial, ?_⟩, ?_⟩
  · intro _ _
    exact ⟨rfl, Int.le_trans (by decide) low, high⟩
  · simp only [Instruction.headBits, Instruction.operandBits, ofNumber,
      Immediate.ofValue, same]

theorem map_upperCase_names {registers : List Register}
    (fit : ∀ register ∈ registers, register.index < 16) :
    (registers.map (·.name.toList)).map Text.upperCase =
      registers.map (·.name.toList) := by
  rw [List.map_map]
  refine List.map_congr_left ?_
  intro register member
  exact upperCase_eq_self (isCapital_name (fit register member)).2

theorem isListed_names {registers : List Register}
    (fit : ∀ register ∈ registers, register.index < 16) :
    ∀ operand ∈ registers.map (·.name.toList), IsListed operand := by
  intro operand member
  obtain ⟨register, inRegisters, rfl⟩ := List.mem_map.mp member
  exact (isCapital_name (fit register inRegisters)).isListed

/--
A word of an instruction without labels is shown by words that write an
instruction without labels and with the same word.  It may be another
instruction, since a number is shown modulo 4096.
-/
theorem IsStatic.exists_spelling {word : Word} (static : IsStatic word) :
    ∃ mnemonic flags operands instruction,
      disassemble word =
        .ok (String.ofList (Text.spaced (spelling mnemonic flags operands))) ∧
      (∀ operand ∈ operands, IsListed operand) ∧
      readStatement ((spelling mnemonic flags (operands.map Text.upperCase)).map
        String.ofList) = .ok instruction ∧
      (∀ label, ¬ RefersTo instruction label) ∧
        instruction.encode = .ok word := by
  obtain ⟨instruction, written, noLabel, encoded⟩ := static
  have decoded := (Instruction.decode_of_encode encoded).2
  have shown : disassemble word = .ok instruction.render :=
    bind_eq_ok_iff.mpr ⟨_, decoded,
      congrArg Except.ok written.render_materialized⟩
  cases written with
  | @registers mnemonic flags registers supported count fit =>
      rw [render_registers count] at shown
      refine ⟨mnemonic, flags, _, _, shown, isListed_names fit, ?_,
        noLabel, encoded⟩
      rw [map_upperCase_names fit]
      exact readStatement_iff_writes.mpr (writes_registers fit supported count)
  | @number mnemonic flags destination immediate supported count fits
      isNumber =>
      rcases isNumber with ⟨label, reference, rfl⟩ | ⟨value, -, -, rfl⟩
      · exact absurd ⟨reference.ne_empty, rfl⟩ (noLabel label)
      · have fit := index_lt_of_slotFits fits
        rw [render_number count rfl, render_ofValue] at shown
        refine ⟨mnemonic, flags, _, _, shown, ?_, ?_, ?_,
          encode_ofNumber_mod encoded⟩
        · intro operand member
          rcases List.mem_append.mp member with name | number
          · exact isListed_names fit operand name
          · rw [List.mem_singleton.mp number]
            exact (isListed_shownNumber _).1
        · rw [List.map_append, map_upperCase_names fit, List.map_singleton,
            (isListed_shownNumber _).2]
          exact readStatement_iff_writes.mpr (writes_number supported count fits
            (isNumberToken_hexUpper (by decide) (by omega)))
        · rintro label ⟨nonempty, same⟩
          exact nonempty (congrArg Immediate.label same).symm

/--
A line of code that writes an instruction without labels and with a given word.
-/
structure Line.Lists (line : Line) (word : Word) : Prop where
  code : line.isCode = true
  inner : line.isHeader = false
  writes : ∃ instruction, readStatement line.tokens = .ok instruction ∧
    (∀ label, ¬ RefersTo instruction label) ∧ instruction.encode = .ok word

/-- A text without line feeds that lists a word, whatever its line number. -/
def Relists (text : String) (word : Word) : Prop :=
  '\n' ∉ text.toList ∧
    ∀ number,
      Line.Lists ⟨number, String.ofList (Line.normalize text.toList)⟩ word

/--
The word of an instruction without labels is shown by a text that lists it.
-/
theorem IsStatic.exists_text {word : Word} (static : IsStatic word) :
    ∃ text, disassemble word = .ok text ∧ Relists text word := by
  obtain ⟨mnemonic, flags, operands, instruction, shown, listed, read, noLabel,
      encoded⟩ :=
    static.exists_spelling
  have upperListed : ∀ operand ∈ operands.map Text.upperCase,
      IsListed operand := by
    intro operand member
    obtain ⟨original, inOperands, rfl⟩ := List.mem_map.mp member
    exact (listed original inOperands).upperCase
  refine ⟨_, shown, ?_, ?_⟩
  · rw [String.toList_ofList]
    intro member
    exact (mem_spaced_spelling listed member).2 rfl
  · intro number
    rw [String.toList_ofList, normalize_spelling listed]
    have text : (⟨number, String.ofList (Text.spaced
        (spelling mnemonic flags (operands.map Text.upperCase)))⟩ :
        Line).text.toList =
          Text.spaced (spelling mnemonic flags (operands.map Text.upperCase)) :=
      String.toList_ofList
    obtain ⟨tokens, code, inner⟩ := spelled_line upperListed text
    exact ⟨code, inner, instruction, by rw [tokens, read], noLabel, encoded⟩

/--
The words of instructions without labels are shown by texts that list them.
-/
theorem exists_disassembleFrom {words : List Word}
    (static : ∀ word ∈ words, IsStatic word) (index : Nat) :
    ∃ texts, disassembleFrom index words = .ok texts ∧
      List.Forall₂ Relists texts words := by
  induction words generalizing index with
  | nil => exact ⟨[], rfl, .nil⟩
  | cons word rest ih =>
      obtain ⟨first, others⟩ := List.forall_mem_cons.mp static
      obtain ⟨text, shown, relists⟩ := first.exists_text
      obtain ⟨texts, inner, all⟩ := ih others (index + 1)
      refine ⟨text :: texts, ?_, .cons relists all⟩
      rw [disassembleFrom, shown]
      exact bind_eq_ok_iff.mpr ⟨texts, inner, rfl⟩

end Asm24.Assembly
