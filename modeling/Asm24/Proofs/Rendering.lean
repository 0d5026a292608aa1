import Asm24.Proofs.Listing
import Asm24.Proofs.Renaming

/-!
# Rendering as a normal form of instruction lines

An instruction can be written in many ways: flags in either order, registers
under several names, numbers in four bases, commas or none.  Its text is one of
them.  The words of the text are read back to the instruction itself, with a
label still in its place, except that a number comes back as the twelve bits
that the machine sees.

So rendering picks one line of all that write the same instruction up to those
twelve bits, and rendering what was read back changes nothing any more.
-/

namespace Asm24.Machine

/--
A number slot in which a number is reduced to twelve bits, and a label stays.
-/
def Immediate.wrapped (immediate : Immediate) : Immediate :=
  if immediate.present && immediate.label == "" then
    { immediate with value := immediate.value % 4096 }
  else
    immediate

/--
The instruction with the number in its number slot reduced to twelve bits.
-/
def Instruction.wrapped (instruction : Instruction) : Instruction :=
  { instruction with immediate := instruction.immediate.wrapped }

theorem Immediate.render_wrapped (immediate : Immediate) :
    immediate.wrapped.present = immediate.present ∧
      immediate.wrapped.render = immediate.render := by
  unfold Immediate.wrapped
  split
  case isFalse => exact ⟨rfl, rfl⟩
  case isTrue => simp [Immediate.render, Immediate.unlinked]

/-- Only the twelve bits of a number are shown. -/
theorem Instruction.render_wrapped (instruction : Instruction) :
    instruction.wrapped.render = instruction.render := by
  rcases instruction.immediate.render_wrapped with ⟨present, shown⟩
  have same : instruction.wrapped.operandTexts = instruction.operandTexts := by
    simp only [Instruction.operandTexts, Instruction.wrapped,
      Instruction.operands, Instruction.mnemonic?, present, shown]
    rfl
  rw [Instruction.render, Instruction.render, same]
  rfl

end Asm24.Machine

namespace Asm24.Assembly

open Asm24.Machine
open Asm24.Proofs

/-! ## The words of a text -/

theorem isWord_spelling {mnemonic : Mnemonic} {flags : FlagSet}
    {operands : List (List Char)}
    (all : ∀ operand ∈ operands, Text.IsWord operand) :
    ∀ piece ∈ spelling mnemonic flags operands, Text.IsWord piece := by
  rw [spelling, List.forall_mem_cons]
  refine ⟨(isCapital_operatorText mnemonic flags).isListed.isWord,
    forall_mem_commaed ?_ all⟩
  rintro word ⟨-, visible⟩
  refine ⟨by simp, List.forall_mem_append.mpr ⟨visible, ?_⟩⟩
  intro char member
  rw [List.mem_singleton.mp member]
  decide

theorem isWord_names {registers : List Register}
    (fit : ∀ register ∈ registers, register.index < 16) :
    ∀ operand ∈ registers.map (·.name.toList), Text.IsWord operand :=
  fun operand member => (isListed_names fit operand member).isWord

/-- The words of the text of an instruction, cut at white space. -/
def renderedTokens (instruction : Instruction) : List String :=
  (Text.words instruction.render.toList).map String.ofList

theorem renderedTokens_registers {mnemonic : Mnemonic} {flags : FlagSet}
    {registers : List Register}
    (count : registers.length = mnemonic.operands.register)
    (fit : ∀ register ∈ registers, register.index < 16) :
    renderedTokens (ofRegisters mnemonic flags registers) =
      (spelling mnemonic flags (registers.map (·.name.toList))).map
        String.ofList := by
  rw [renderedTokens, render_registers count, String.toList_ofList,
    Text.words_spaced (isWord_spelling (isWord_names fit))]

theorem renderedTokens_number {mnemonic : Mnemonic} {flags : FlagSet}
    {destination : Option Register} {immediate : Immediate}
    (count : destination.isSome.toNat + 1 = mnemonic.operands.immediate)
    (fits : Instruction.SlotFits destination)
    (present : immediate.present = true)
    (isWord : Text.IsWord immediate.render.toList) :
    renderedTokens (ofNumber mnemonic flags destination immediate) =
      (spelling mnemonic flags (destination.toList.map (·.name.toList) ++
        [immediate.render.toList])).map String.ofList := by
  have words :
      ∀ operand ∈ destination.toList.map (·.name.toList) ++
        [immediate.render.toList],
      Text.IsWord operand :=
    List.forall_mem_append.mpr ⟨isWord_names (index_lt_of_slotFits fits),
      by simpa using isWord⟩
  rw [renderedTokens, render_number count present, String.toList_ofList,
    Text.words_spaced (isWord_spelling words)]

/-! ## Reading a text back -/

/--
The text of a number slot is a word that writes it again, up to its twelve bits.
-/
theorem IsNumber.isNumberToken_render {immediate : Immediate}
    (isNumber : IsNumber immediate) :
    Text.IsWord immediate.render.toList ∧
      IsNumberToken (String.ofList immediate.render.toList)
        immediate.wrapped := by
  rcases isNumber with ⟨label, reference, rfl⟩ | ⟨value, -, -, rfl⟩
  · have nonempty := reference.ne_empty
    have shown : (Immediate.ofLabel label).render = label := by
      simp [Immediate.render, Immediate.unlinked, Immediate.ofLabel, nonempty]
    have same : (Immediate.ofLabel label).wrapped = .ofLabel label := by
      simp [Immediate.wrapped, Immediate.ofLabel, nonempty]
    rw [shown, same, String.ofList_toList]
    exact ⟨isWord_of_isLabelName reference.isLabelName, .label reference⟩
  · have bits : ((value % 4096).toNat : Int) = value % 4096 := by omega
    have same :
        (Immediate.ofValue value).wrapped = .ofValue (value % 4096).toNat := by
      rw [bits]
      rfl
    rw [render_ofValue, same]
    exact ⟨(isListed_shownNumber _).1.isWord,
      isNumberToken_hexUpper (by decide) (by omega)⟩

/--
The words of the text of a written instruction write it again, up to twelve
bits.
-/
theorem Written.writes_render {instruction : Instruction}
    (written : Written instruction) :
    Writes (renderedTokens instruction) instruction.wrapped := by
  cases written with
  | registers supported count fit =>
      rw [renderedTokens_registers count fit]
      exact writes_registers fit supported count
  | number supported count fits isNumber =>
      rcases isNumber.isNumberToken_render with ⟨isWord, token⟩
      rw [renderedTokens_number count fits isNumber.present isWord]
      exact writes_number supported count fits token

/--
An instruction that a line writes is rendered as a text whose words are read
back to it, with only a number replaced by its twelve bits.  What is read back
is accepted again and has the same text.
-/
theorem readInstruction_rendered {tokens : List String}
    {instruction : Instruction}
    (read : readInstruction tokens = .ok instruction)
    (valid : validate instruction = .ok ()) :
    readInstruction ((Text.words instruction.render.toList).map String.ofList) =
        .ok instruction.wrapped ∧
      validate instruction.wrapped = .ok () ∧
      instruction.wrapped.render = instruction.render := by
  have written :=
    written_of_readStatement (readStatement_eq_ok_iff.mpr ⟨read, valid⟩)
  have readBack := readStatement_iff_writes.mpr written.writes_render
  rcases readStatement_eq_ok_iff.mp readBack with ⟨again, stillValid⟩
  exact ⟨again, stillValid, instruction.render_wrapped⟩

/-- A negative number comes back as its twelve bits, and a label as itself. -/
theorem readInstruction_rendered_sum :
    let sum := ofNumber .add .both (some ⟨1⟩) (.ofValue (-1))
    let wrapped := ofNumber .add .both (some ⟨1⟩) (.ofValue 0xFFF)
    let branch := ofNumber .bal .none none (.ofLabel "LOOP")
    (readInstruction ["ADDSN", "R01", "#-1"] = .ok sum ∧ validate sum = .ok () ∧
        readInstruction ((Text.words sum.render.toList).map String.ofList) =
          .ok wrapped ∧
        validate wrapped = .ok () ∧ wrapped.render = sum.render) ∧
      readInstruction ["BAL", "LOOP"] = .ok branch ∧ validate branch = .ok () ∧
        readInstruction ((Text.words branch.render.toList).map String.ofList) =
          .ok branch :=
  ⟨⟨rfl, rfl, @readInstruction_rendered ["ADDSN", "R01", "#-1"] _ rfl rfl⟩,
    ⟨rfl, rfl, (@readInstruction_rendered ["BAL", "LOOP"] _ rfl rfl).1⟩⟩

end Asm24.Assembly
