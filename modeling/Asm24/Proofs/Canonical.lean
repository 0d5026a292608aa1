import Asm24.Proofs.RoundTrip
import Mathlib.Tactic.TFAE

/-!
# Words that can be assembled

More words decode than a source can yield: a word may set a flag that its
operation does not take, or fill a slot that the operation does not have.  The
text of such a word drops what is too much.

A word is `Canonical` if it holds nothing of this kind.  `assemblable_tfae` says
that these are the words of programs, and the words that their own text gives
back.
-/

namespace Asm24.Assembly

open Asm24.Machine
open Asm24.Proofs

/-! ## Canonical words -/

/--
An instruction with every slot of its shape filled, but with no flag that the
operation does not take and with register zero in each slot that the operation
does not have.
-/
structure IsClean (mnemonic : Mnemonic) (instruction : Instruction) : Prop where
  flags : Supports mnemonic instruction.flags
  registers : instruction.shape = .register →
    ∀ slot ∈ [instruction.destination, instruction.first,
      instruction.second].drop mnemonic.operands.register, slot = some ⟨0⟩
  number : instruction.shape = .immediate → 1 ≤ mnemonic.operands.immediate
  destination : instruction.shape = .immediate →
    mnemonic.operands.immediate = 1 →
    instruction.destination = some ⟨0⟩

/-- A word that decodes to a clean instruction. -/
def Canonical (word : Word) : Prop :=
  ∃ instruction mnemonic, Instruction.decode word = .ok instruction ∧
    instruction.mnemonic? = some mnemonic ∧ IsClean mnemonic instruction

theorem ofOpcode?_eq_some_iff {opcode : Nat} {mnemonic : Mnemonic} :
    Mnemonic.ofOpcode? opcode = some mnemonic ↔ opcode = mnemonic.opcode := by
  constructor
  · intro found
    have inverse : ∀ index : Fin 29,
        (Mnemonic.all.get index).opcode = index := by decide
    rcases List.getElem?_eq_some_iff.mp found with ⟨inside, rfl⟩
    exact (inverse ⟨opcode, inside⟩).symm
  · rintro rfl
    exact Mnemonic.ofOpcode?_opcode mnemonic

/-- A decoded instruction has the slots of its shape and no others. -/
theorem slots_of_decode {word : Word} {instruction : Instruction}
    (decoded : Instruction.decode word = .ok instruction) :
    (∃ opcode status negate, ∃ destination first second : Register,
      (∀ register ∈ [destination, first, second], register.index < 16) ∧
      instruction = ⟨opcode, .register, status, negate, some destination,
        some first, some second, .absent⟩) ∨
    ∃ opcode status negate, ∃ (destination : Register) (value : Nat),
      destination.index < 16 ∧ value ≤ 4095 ∧
      instruction = ⟨opcode, .immediate, status, negate, some destination,
        none, none, .ofValue value⟩ := by
  rcases (Instruction.decode_eq_ok_iff word instruction).mp decoded with
    ⟨-, rfl⟩
  unfold Instruction.fields
  split
  · refine Or.inr ⟨_, _, _, _, _, ?_, ?_, rfl⟩
    · exact Nat.mod_lt _ (by omega)
    · omega
  · refine Or.inl ⟨_, _, _, _, _, _, ?_, rfl⟩
    simp only [List.forall_mem_cons, List.not_mem_nil, false_imp_iff,
      implies_true, and_true]
    exact ⟨Nat.mod_lt _ (by omega), Nat.mod_lt _ (by omega),
      Nat.mod_lt _ (by omega)⟩

/-! ## From a word to an instruction that a line can write -/

/-- Registers behind the last operand that are zero need not be written. -/
theorem materializedRegister_take {registers : List Register} {count : Nat}
    (clear : ∀ register ∈ registers.drop count, register = ⟨0⟩) {index : Nat}
    {register : Register} (found : registers[index]? = some register) :
    Instruction.materializedRegister (registers.take count)[index]? =
      some register := by
  by_cases operand : index < count
  · rw [List.getElem?_take_of_lt operand, found]
    rfl
  · have behind : (registers.drop count)[index - count]? = some register := by
      rw [List.getElem?_drop, ← found]
      congr 1
      omega
    rw [List.getElem?_take_eq_none (by omega),
      clear register (List.mem_of_getElem? behind)]
    rfl

theorem materializedImmediate_ofValue {value : Nat} (small : value ≤ 4095) :
    Instruction.materializedImmediate (.ofValue value) = .ofValue value := by
  have bits : (value : Int) % 4096 = value := by omega
  simp [Instruction.materializedImmediate, Immediate.ofValue, bits]

/--
A clean instruction is what a written one becomes when its slots are filled.
Where the line has no destination, the slot is filled with register zero.
-/
theorem IsClean.exists_written {word : Word} {instruction : Instruction}
    {mnemonic : Mnemonic} (clean : IsClean mnemonic instruction)
    (decoded : Instruction.decode word = .ok instruction)
    (operation : instruction.mnemonic? = some mnemonic) :
    ∃ written, Written written ∧ (∀ label, ¬ RefersTo written label) ∧
      written.materialized = instruction := by
  rcases clean with ⟨supported, registersClear, hasNumber, destinationClear⟩
  have isOpcode := ofOpcode?_eq_some_iff.mp operation
  rcases slots_of_decode decoded with
    ⟨opcode, status, negate, destination, first, second, fit, rfl⟩ |
    ⟨opcode, status, negate, destination, value, fits, small, rfl⟩
  · have clear :
        ∀ register ∈ [destination, first, second].drop
          mnemonic.operands.register,
        register = ⟨0⟩ := by
      intro register member
      have slot := List.mem_map_of_mem (f := some) member
      rw [List.map_drop] at slot
      exact Option.some.inj (registersClear rfl _ slot)
    let registers :=
      [destination, first, second].take mnemonic.operands.register
    have count : registers.length = mnemonic.operands.register := by
      have short := register_operands_le mnemonic
      rw [List.length_take, List.length_cons, List.length_cons,
        List.length_singleton]
      omega
    refine ⟨ofRegisters mnemonic ⟨negate, status⟩ registers,
      .registers supported count ?_, ?_, ?_⟩
    · intro register member
      exact fit register (List.mem_of_mem_take member)
    · rintro label ⟨-, same⟩
      cases same
    · have slot {index : Nat} {register : Register}
          (found : [destination, first, second][index]? = some register) :
          Instruction.materializedRegister registers[index]? = some register :=
        materializedRegister_take clear found
      subst isOpcode
      rw [materialized_ofRegisters, slot rfl, slot rfl, slot rfl]
  · have isNumber : IsNumber (.ofValue value) :=
      Or.inr ⟨value, by omega, by omega, rfl⟩
    have noLabel (slot : Option Register) (label : String) :
        ¬ RefersTo (ofNumber mnemonic ⟨negate, status⟩ slot (.ofValue value))
          label := by
      rintro ⟨nonempty, same⟩
      exact nonempty (congrArg Immediate.label same).symm
    subst isOpcode
    have atLeast := hasNumber rfl
    have atMost := number_operands_le mnemonic
    by_cases alone : mnemonic.operands.immediate = 1
    · refine ⟨ofNumber mnemonic ⟨negate, status⟩ none (.ofValue value),
        .number supported alone.symm trivial isNumber, noLabel none, ?_⟩
      have zero : destination = ⟨0⟩ :=
        Option.some.inj (destinationClear rfl alone)
      rw [materialized_ofNumber, materializedImmediate_ofValue small, zero]
      rfl
    · have both : 1 + 1 = mnemonic.operands.immediate := by omega
      refine ⟨ofNumber mnemonic ⟨negate, status⟩ (some destination)
        (.ofValue value), .number supported both fits isNumber,
        noLabel (some destination), ?_⟩
      rw [materialized_ofNumber, materializedImmediate_ofValue small]
      rfl

/-- An instruction has the word that decodes to it with its slots filled. -/
theorem encode_of_materialized {word : Word} {written instruction : Instruction}
    (encodable : Instruction.Encodable written)
    (decoded : Instruction.decode word = .ok instruction)
    (filled : written.materialized = instruction) :
    written.encode = .ok word := by
  have encoded := (Instruction.encode_eq_ok_iff written _).mpr ⟨encodable, rfl⟩
  have again := (Instruction.decode_of_encode encoded).2
  rw [filled] at again
  have same :=
    (Instruction.encode_of_decode again).symm.trans
      (Instruction.encode_of_decode decoded)
  rw [encoded, same]

theorem Canonical.isStatic {word : Word} (canonical : Canonical word) :
    IsStatic word := by
  rcases canonical with ⟨instruction, mnemonic, decoded, operation, clean⟩
  rcases clean.exists_written decoded operation with
    ⟨written, isWritten, noLabel, filled⟩
  have encoded :=
    encode_of_materialized (isWritten.encodable noLabel) decoded filled
  exact ⟨written, isWritten, noLabel, encoded⟩

/-! ## From a written instruction to its word -/

/--
Filling the slots of a written instruction adds nothing that it could not have.
-/
theorem Written.exists_clean {instruction : Instruction}
    (written : Written instruction) :
    ∃ mnemonic, instruction.materialized.mnemonic? = some mnemonic ∧
      IsClean mnemonic instruction.materialized := by
  cases written with
  | @registers mnemonic flags registers supported count fit =>
      refine ⟨mnemonic, mnemonic?_ofRegisters mnemonic flags registers,
        supported, ?_, ?_, ?_⟩
      · intro _ slot member
        rw [← count, materialized_ofRegisters] at member
        rcases registers with _ | ⟨first, _ | ⟨second, _ | ⟨third, rest⟩⟩⟩
        · simpa [Instruction.materializedRegister] using member
        · simpa [Instruction.materializedRegister] using member
        · simpa [Instruction.materializedRegister] using member
        · simp at member
      · intro shape
        cases shape
      · intro shape
        cases shape
  | @number mnemonic flags destination immediate supported count fits
      isNumber =>
      refine ⟨mnemonic, mnemonic?_ofNumber mnemonic flags destination immediate,
        supported, ?_, ?_, ?_⟩
      · intro shape
        cases shape
      · intro _
        omega
      · intro _ alone
        cases destination with
        | none => rfl
        | some register =>
            rw [alone] at count
            cases count

theorem IsStatic.canonical {word : Word} (static : IsStatic word) :
    Canonical word := by
  rcases static with ⟨instruction, written, -, encoded⟩
  rcases written.exists_clean with ⟨mnemonic, operation, clean⟩
  exact ⟨instruction.materialized, mnemonic,
    (Instruction.decode_of_encode encoded).2, operation, clean⟩

/-! ## One word as a source -/

theorem split_header_text {text : String} (whole : '\n' ∉ text.toList) :
    Line.split (".SECTION INSTRUCTION\n" ++ text) =
      [⟨1, ".SECTION INSTRUCTION"⟩,
        ⟨2, String.ofList (Line.normalize text.toList)⟩] := by
  rw [split_header, Text.split_eq_singleton (Text.beq_feed_eq_false whole)]
  rfl

/--
The text of a word of an instruction without labels is a source for this word
alone.
-/
theorem IsStatic.exists_source {word : Word} (static : IsStatic word) :
    ∃ text, disassemble word = .ok text ∧ ∀ source, ∃ program,
      assemble source (".SECTION INSTRUCTION\n" ++ text) = .ok program ∧
        program.words = [word] := by
  rcases static.exists_text with ⟨text, shown, whole, lists⟩
  refine ⟨text, shown, ?_⟩
  intro source
  rw [assemble, split_header_text whole]
  have noTail : ∀ line ∈ ([] : List Line), line.IsVoid := by simp
  exact assembleLines_listed (.cons (lists 2) .nil) noTail (by simp) source
    (by decide)

/--
A word can be assembled exactly if it is canonical, and exactly if it has a text
that is assembled, under a header of its section, to this word alone.
-/
theorem assemblable_tfae (word : Word) :
    [∃ source text program, assemble source text = .ok program ∧
      word ∈ program.words, Canonical word,
      ∃ text, disassemble word = .ok text ∧ ∀ source, ∃ program,
        assemble source (".SECTION INSTRUCTION\n" ++ text) = .ok program ∧
          program.words = [word]].TFAE := by
  tfae_have 1 → 2 := by
    rintro ⟨source, text, program, assembled, member⟩
    exact ((words_of_assembleLines assembled).2 word member).canonical
  tfae_have 2 → 3 := by
    intro canonical
    exact canonical.isStatic.exists_source
  tfae_have 3 → 1 := by
    rintro ⟨text, -, again⟩
    rcases again "" with ⟨program, assembled, words⟩
    exact ⟨"", _, program, assembled, by simp [words]⟩
  tfae_finish

/-- A word that is not canonical, with the text of another word. -/
example : disassemble 0x40000 = .ok "DON" ∧ disassemble 0 = .ok "DON" := by
  decide

end Asm24.Assembly
