import Asm24.Listing
import Asm24.Proofs.Numeral
import Asm24.Proofs.Operation
import Asm24.Proofs.Words

/-!
# Reading rendered instructions back

The text of an instruction is made of words: the operator, then the operands
with a comma after each but the last.  This module says what these words are and
that they write the instruction again: the operator its operation and flags, the
name of a register the register, and a number its twelve bits.
-/

namespace Asm24.Assembly

open Asm24.Machine
open Asm24.Proofs

/-! ## Characters -/

/--
Visible characters of ASCII before the small letters, without the colon that
ends a label.
-/
def isCapital (char : Char) : Bool :=
  0x21 ≤ char.toNat && char.toNat < 0x61 && char != ':'

/--
The characters of rendered instructions: capitals, and the mark of a hexadecimal
number.
-/
def isListed (char : Char) : Bool :=
  isCapital char || char == 'x'

/-- A word of capitals. -/
def IsCapital (word : List Char) : Prop :=
  word ≠ [] ∧ word.all isCapital = true

/-- A word that is made of characters of rendered instructions. -/
def IsListed (word : List Char) : Prop :=
  word ≠ [] ∧ word.all isListed = true

theorem isBlank_of_isListed {char : Char} (listed : isListed char = true) :
    Text.isBlank char = false := by
  simp only [isListed, isCapital, Bool.or_eq_true, Bool.and_eq_true,
    decide_eq_true_eq, beq_iff_eq] at listed
  rcases listed with ⟨⟨low, high⟩, -⟩ | rfl
  · simp [Text.isBlank]
    omega
  · decide

theorem IsListed.isWord {word : List Char} (listed : IsListed word) :
    Text.IsWord word :=
  ⟨listed.1, fun char member =>
    isBlank_of_isListed (List.all_eq_true.mp listed.2 char member)⟩

theorem IsCapital.isListed {word : List Char} (capital : IsCapital word) :
    IsListed word := by
  refine ⟨capital.1, List.all_eq_true.mpr ?_⟩
  intro char member
  simp [Assembly.isListed, List.all_eq_true.mp capital.2 char member]

/-- Capitals have no other upper case. -/
theorem upper_eq_self {char : Char} (capital : isCapital char = true) :
    Text.upper char = char := by
  have small : ∀ run ∈ Text.caseRuns, 0x61 ≤ run.first := by decide +kernel
  have high : char.toNat < 0x61 := by
    simp only [isCapital, Bool.and_eq_true, decide_eq_true_eq] at capital
    exact capital.1.2
  have noRun :
      Text.caseRuns.find? (fun run => run.holds char.toNat) = none := by
    rw [List.find?_eq_none]
    intro run member
    have first := small run member
    simp only [Text.CaseRun.holds, Bool.and_eq_true, decide_eq_true_eq]
    omega
  rw [Text.upper, noRun]

/-- A word of capitals is its own upper case. -/
theorem upperCase_eq_self {word : List Char}
    (capital : word.all isCapital = true) :
    Text.upperCase word = word := by
  have each : ∀ char ∈ word, Text.upper char = char := by
    intro char member
    exact upper_eq_self (List.all_eq_true.mp capital char member)
  rw [Text.upperCase, List.map_congr_left each, List.map_id']

theorem IsListed.upperCase {word : List Char} (listed : IsListed word) :
    IsListed (Text.upperCase word) := by
  refine ⟨by simpa [Text.upperCase] using listed.1, List.all_eq_true.mpr ?_⟩
  intro char member
  obtain ⟨original, originalMember, rfl⟩ := List.mem_map.mp member
  have inWord := List.all_eq_true.mp listed.2 original originalMember
  rw [Assembly.isListed, Bool.or_eq_true, beq_iff_eq] at inWord
  rcases inWord with capital | rfl
  · rw [upper_eq_self capital, Assembly.isListed, capital]
    rfl
  · decide +kernel

/-! ## Operators -/

/-- The word that writes an operation with flags. -/
def operatorText (mnemonic : Mnemonic) (flags : FlagSet) : List Char :=
  mnemonic.name.toList ++ flags.letters

theorem isOperator_operatorText {mnemonic : Mnemonic} {flags : FlagSet}
    (supported : Supports mnemonic flags) :
    IsOperator (String.ofList (operatorText mnemonic flags)) mnemonic
      flags := by
  have members (flag : Flag) :
      flag ∈ [Flag.negate, Flag.status].filter flags.has ↔
      flags.has flag = true := by
    cases flag <;> simp
  refine ⟨[Flag.negate, Flag.status].filter flags.has, ?_, ?_, ?_, fun flag =>
    (members flag).symm⟩
  · rcases flags with ⟨_ | _, _ | _⟩ <;> rw [String.toList_ofList] <;> rfl
  · exact (by decide : [Flag.negate, Flag.status].Nodup).filter _
  · intro flag member
    exact supported flag ((members flag).mp member)

/-! ## Operands -/

theorem isRegisterToken_name {register : Register}
    (fits : register.index < 16) :
    IsRegisterToken (String.ofList register.name.toList) register ∧
      IsRegisterToken (String.ofList (register.name.toList ++ [',']))
        register := by
  have known : Register.ofAlias? register.name = some register :=
    Register.ofAlias?_name ⟨register.index, fits⟩
  refine ⟨⟨_, known, Or.inl String.ofList_toList⟩, ⟨_, known, Or.inr ?_⟩⟩
  rw [← String.toList_inj, String.toList_ofList, String.toList_append]
  rfl

/-- The word that writes a number, in the case that the assembler reads. -/
def numberText (value : Nat) : List Char :=
  '#' :: '0' :: 'X' :: (Text.hexUpper 1 value).toList

/-- The number of an operand as it is shown. -/
def shownNumber (value : Nat) : List Char :=
  '#' :: '0' :: 'x' :: (Text.hexUpper 1 value).toList

/--
A number of twelve bits is written by its digits, behind a mark in either case.
-/
theorem isNumberToken_hexUpper {mark : Char} {value : Nat}
    (isMark : mark ∈ Base.hexadecimal.marks) (small : value ≤ 4095) :
    IsNumberToken (String.ofList
      ('#' :: '0' :: mark :: (Text.hexUpper 1 value).toList))
      (.ofValue value) :=
  .literal (.marked isMark (Text.isNumeral_hexUpper 1 value)) (by omega)
    (by omega)

/-! ## Instructions -/

/-- Operands with a comma after each but the last. -/
def commaed : List (List Char) → List (List Char)
  | [] => []
  | [last] => [last]
  | first :: second :: rest => (first ++ [',']) :: commaed (second :: rest)

theorem commaed_concat (front : List (List Char)) (last : List Char) :
    commaed (front ++ [last]) = front.map (· ++ [',']) ++ [last] := by
  induction front with
  | nil => rfl
  | cons first rest ih =>
      cases rest with
      | nil => rfl
      | cons second rest =>
          change (first ++ [',']) :: commaed (second :: rest ++ [last]) = _
          rw [ih]
          rfl

/--
What holds of all operands, and of an operand with a comma, holds of the words.
-/
theorem forall_mem_commaed {holds : List Char → Prop}
    {operands : List (List Char)}
    (comma : ∀ word, holds word → holds (word ++ [',']))
    (all : ∀ operand ∈ operands, holds operand) :
    ∀ piece ∈ commaed operands, holds piece := by
  rcases List.eq_nil_or_concat operands with rfl | ⟨front, last, rfl⟩
  · simp [commaed]
  · rw [List.concat_eq_append] at all ⊢
    rcases List.forall_mem_append.mp all with ⟨inFront, atLast⟩
    rw [commaed_concat, List.forall_mem_append, List.forall_mem_map]
    exact ⟨fun word member => comma word (inFront word member), atLast⟩

/-- The words that write an instruction. -/
def spelling (mnemonic : Mnemonic) (flags : FlagSet)
    (operands : List (List Char)) : List (List Char) :=
  operatorText mnemonic flags :: commaed operands

theorem commaed_names (registers : List Register) (last : List Char) :
    commaed (registers.map (·.name.toList) ++ [last]) =
      registers.map (·.name.toList ++ [',']) ++ [last] := by
  rw [commaed_concat, List.map_map]
  rfl

section Names

variable {registers : List Register}
  (fit : ∀ register ∈ registers, register.index < 16)

include fit

theorem isRegisterToken_commaed_names :
    List.Forall₂ IsRegisterToken
      ((registers.map (·.name.toList ++ [','])).map String.ofList)
      registers := by
  rw [List.map_map, List.forall₂_map_left_iff, List.forall₂_same]
  intro register member
  exact (isRegisterToken_name (fit register member)).2

theorem isRegisterToken_names :
    List.Forall₂ IsRegisterToken
      ((commaed (registers.map (·.name.toList))).map String.ofList)
      registers := by
  rcases List.eq_nil_or_concat registers with rfl | ⟨front, last, rfl⟩
  · exact .nil
  · rw [List.concat_eq_append] at fit ⊢
    rcases List.forall_mem_append.mp fit with ⟨frontFit, lastFit⟩
    have lastToken := (isRegisterToken_name (lastFit last (by simp))).1
    rw [List.map_append, List.map_singleton, commaed_names, List.map_append]
    exact List.rel_append (isRegisterToken_commaed_names frontFit)
      (.cons lastToken .nil)

/-- The words of an instruction of register shape write it. -/
theorem writes_registers {mnemonic : Mnemonic} {flags : FlagSet}
    (supported : Supports mnemonic flags)
    (count : registers.length = mnemonic.operands.register) :
    Writes ((spelling mnemonic flags (registers.map (·.name.toList))).map
      String.ofList) (ofRegisters mnemonic flags registers) := by
  have names := isRegisterToken_names fit
  exact .registers (isOperator_operatorText supported)
    (names.length_eq.trans count) names

end Names

theorem index_lt_of_slotFits {slot : Option Register}
    (fits : Instruction.SlotFits slot) :
    ∀ register ∈ slot.toList, register.index < 16 := by
  intro register member
  rw [Option.mem_toList.mp member] at fits
  exact fits

/-- The words of an instruction of immediate shape write it. -/
theorem writes_number {mnemonic : Mnemonic} {flags : FlagSet}
    {destination : Option Register} {last : List Char} {immediate : Immediate}
    (supported : Supports mnemonic flags)
    (count : destination.isSome.toNat + 1 = mnemonic.operands.immediate)
    (fits : Instruction.SlotFits destination)
    (isNumber : IsNumberToken (String.ofList last) immediate) :
    Writes ((spelling mnemonic flags
        (destination.toList.map (·.name.toList) ++ [last])).map String.ofList)
      (ofNumber mnemonic flags destination immediate) := by
  have names := isRegisterToken_commaed_names (index_lt_of_slotFits fits)
  have slot : destination.toList[0]? = destination := by
    cases destination <;> rfl
  have length : destination.toList.length = destination.isSome.toNat := by
    cases destination <;> rfl
  rw [spelling, List.map_cons, commaed_names, List.map_append]
  nth_rewrite 2 [← slot]
  exact .number (isOperator_operatorText supported)
    ((congrArg (· + 1) (names.length_eq.trans length)).trans count)
    names isNumber

end Asm24.Assembly
