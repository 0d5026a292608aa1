import Asm24.Proofs.Grammar
import Asm24.Proofs.Word

/-!
# Instructions that lines write

An instruction line that is read and held to its operation writes an instruction
of one of two forms.  In the register form as many leading slots are filled as
the operation has operands.  In the number form the number slot is filled, and
the destination too if the operation has two operands.  `Written` is the
predicate of these instructions, and `written_of_readStatement` says that
reading yields no others.

A written instruction without a label operand is encodable.
-/

namespace Asm24.Assembly

open Asm24.Machine
open Asm24.Proofs

/-! ## The two forms -/

/-- A number slot that refers to a label or holds a number in range. -/
def IsNumber (immediate : Immediate) : Prop :=
  (∃ label, IsReference label ∧ immediate = .ofLabel label) ∨
    ∃ value, -2048 ≤ value ∧ value ≤ 4095 ∧ immediate = .ofValue value

theorem materialized_ofRegisters (mnemonic : Mnemonic) (flags : FlagSet)
    (registers : List Register) :
    (ofRegisters mnemonic flags registers).materialized =
      ⟨mnemonic.opcode, .register, flags.status, flags.negate,
        Instruction.materializedRegister registers[0]?,
        Instruction.materializedRegister registers[1]?,
        Instruction.materializedRegister registers[2]?, .absent⟩ :=
  rfl

theorem materialized_ofNumber (mnemonic : Mnemonic) (flags : FlagSet)
    (destination : Option Register) (immediate : Immediate) :
    (ofNumber mnemonic flags destination immediate).materialized =
      ⟨mnemonic.opcode, .immediate, flags.status, flags.negate,
        Instruction.materializedRegister destination, none, none,
        Instruction.materializedImmediate immediate⟩ :=
  rfl

/-- The instructions that an instruction line can write. -/
inductive Written : Instruction → Prop where
  | registers {mnemonic : Mnemonic} {flags : FlagSet}
      {registers : List Register} (supported : Supports mnemonic flags)
      (count : registers.length = mnemonic.operands.register)
      (fit : ∀ register ∈ registers, register.index < 16) :
      Written (ofRegisters mnemonic flags registers)
  | number {mnemonic : Mnemonic} {flags : FlagSet}
      {destination : Option Register} {immediate : Immediate}
      (supported : Supports mnemonic flags)
      (count : destination.isSome.toNat + 1 = mnemonic.operands.immediate)
      (fits : Instruction.SlotFits destination)
      (isNumber : IsNumber immediate) :
      Written (ofNumber mnemonic flags destination immediate)

/-! ## Instruction lines -/

theorem IsNumberToken.isNumber {word : String} {immediate : Immediate}
    (token : IsNumberToken word immediate) : IsNumber immediate := by
  cases token with
  | label reference => exact Or.inl ⟨_, reference, rfl⟩
  | literal spells low high => exact Or.inr ⟨_, low, high, rfl⟩

theorem index_lt_of_tokens {words : List String} {registers : List Register}
    (all : List.Forall₂ IsRegisterToken words registers) :
    ∀ register ∈ registers, register.index < 16 := by
  intro register member
  rcases exists_related all.flip register member with ⟨word, token⟩
  exact IsRegisterToken.index_lt token

theorem slotFits_getElem? {registers : List Register}
    (fit : ∀ register ∈ registers, register.index < 16) (index : Nat) :
    Instruction.SlotFits registers[index]? := by
  cases slot : registers[index]? with
  | none => trivial
  | some register => exact fit register (List.mem_of_getElem? slot)

/--
A line that is read and held to its operation writes an instruction of one of
the two forms.
-/
theorem written_of_readStatement {tokens : List String}
    {instruction : Instruction}
    (read : readStatement tokens = .ok instruction) : Written instruction := by
  cases readStatement_iff_writes.mp read with
  | registers isOperator count all =>
      exact .registers isOperator.supports (all.length_eq.symm.trans count)
        (index_lt_of_tokens all)
  | number isOperator count all isNumber =>
      exact .number isOperator.supports
        ((isSome_destination (length_le_one count) all).trans count)
        (slotFits_getElem? (index_lt_of_tokens all) 0) isNumber.isNumber

/-! ## Label operands -/

/-- An instruction has a label in the place of its number. -/
def RefersTo (instruction : Instruction) (label : String) : Prop :=
  label ≠ "" ∧ instruction.immediate = .ofLabel label

/--
A label operand is not empty, so its slot counts as one that is still to be
linked.
-/
theorem IsReference.ne_empty {label : String} (reference : IsReference label) :
    label ≠ "" := by
  rintro rfl
  have impossible : Token.isLabelImmediate "".toList = false := by decide
  rw [reference.1] at impossible
  cases impossible

/-- Linking has to replace exactly the labels in number slots. -/
theorem Written.pending?_eq_some_iff {statement : Statement}
    (written : Written statement.instruction) {label : String} :
    statement.pending? = some label ↔ RefersTo statement.instruction label := by
  obtain ⟨address, line, instruction⟩ := statement
  cases written with
  | registers => simp [Statement.pending?, RefersTo, Immediate.ofLabel]
  | number supported count fits isNumber =>
      rcases isNumber with ⟨other, reference, rfl⟩ | ⟨value, -, -, rfl⟩
      · have nonempty := reference.ne_empty
        simp only [Statement.pending?, RefersTo, Immediate.unlinked,
          Immediate.ofLabel]
        grind
      · simp only [Statement.pending?, RefersTo, Immediate.unlinked,
          Immediate.ofValue, Immediate.ofLabel]
        grind

/-- A written instruction without a label operand is encodable. -/
theorem Written.encodable {instruction : Instruction}
    (written : Written instruction)
    (linked : ∀ label, ¬ RefersTo instruction label) :
    Instruction.Encodable instruction := by
  cases written with
  | registers supported count fit =>
      refine ⟨Mnemonic.opcode_lt _, slotFits_getElem? fit 0,
        slotFits_getElem? fit 1, slotFits_getElem? fit 2, ?_⟩
      intro shape
      cases shape
  | number supported count fits isNumber =>
      refine ⟨Mnemonic.opcode_lt _, fits, trivial, trivial, ?_⟩
      intro _
      rcases isNumber with ⟨label, reference, rfl⟩ | ⟨value, low, high, rfl⟩
      · exact absurd ⟨reference.ne_empty, rfl⟩ (linked label)
      · exact fun _ => ⟨rfl, low, high⟩

/-- A written instruction without a label operand has a word. -/
theorem Written.exists_encode {instruction : Instruction}
    (written : Written instruction)
    (linked : ∀ label, ¬ RefersTo instruction label) :
    ∃ word, instruction.encode = .ok word :=
  ⟨_, (Instruction.encode_eq_ok_iff instruction _).mpr
    ⟨written.encodable linked, rfl⟩⟩

/-! ## Replacing a label operand -/

/--
A written instruction refers to the label in its number slot and to no other.
-/
theorem Written.unlinked_iff {instruction : Instruction}
    (written : Written instruction) {label : String} :
    (instruction.immediate.unlinked = true ∧
      instruction.immediate.label = label) ↔
      RefersTo instruction label := by
  cases written with
  | registers =>
      simp [RefersTo, ofRegisters, Immediate.unlinked, Immediate.ofLabel]
  | number supported count fits isNumber =>
      rcases isNumber with ⟨other, reference, rfl⟩ | ⟨value, -, -, rfl⟩
      · have nonempty := reference.ne_empty
        simp only [RefersTo, ofNumber, Immediate.unlinked, Immediate.ofLabel]
        grind
      · simp only [RefersTo, ofNumber, Immediate.unlinked, Immediate.ofValue,
          Immediate.ofLabel]
        grind

/--
A label operand is the last word of its line, and any other label in its place
is read in the same way.
-/
theorem readStatement_replace {tokens : List String} {instruction : Instruction}
    {label : String} (read : readStatement tokens = .ok instruction)
    (operand : RefersTo instruction label) :
    ∃ operator middle, tokens = operator :: middle ++ [label] ∧
      ∀ other, IsReference other →
        readStatement (operator :: middle ++ [other]) =
        .ok { instruction with immediate := .ofLabel other } := by
  rcases operand with ⟨nonempty, labelled⟩
  cases readStatement_iff_writes.mp read with
  | registers => cases labelled
  | @number operator last front _ _ _ immediate isOperator count all isNumber =>
      cases isNumber with
      | label reference =>
          obtain rfl : last = label := congrArg Immediate.label labelled
          refine ⟨operator, front, rfl, ?_⟩
          intro other reference
          exact readStatement_iff_writes.mpr
            (.number isOperator count all (.label reference))
      | literal =>
          exact absurd (congrArg Immediate.label labelled).symm nonempty

end Asm24.Assembly
