import Asm24.Machine.Word
import Asm24.Proofs.Success
import Mathlib.Algebra.Group.Nat.Defs
import Mathlib.Logic.Basic

/-!
# Instructions and words

Encoding and decoding are inverse to each other.  An instruction has a word
exactly if it is `Encodable`, and a word is an instruction exactly if it is
`Legible`.  Decoding the word of an instruction gives the instruction back with
the slots of its shape filled, and encoding the instruction of a word gives the
word back.

The fields of a word are named by `fields`, which is decoding without its
checks.  All arithmetic on bits is in the lemmas about it.
-/

namespace Asm24.Machine

open Asm24.Proofs

theorem Mnemonic.isNone_ofOpcode?_iff (opcode : Nat) :
    (Mnemonic.ofOpcode? opcode).isNone = true ↔ ¬ opcode < 29 := by
  simp [Mnemonic.ofOpcode?, Mnemonic.all]

namespace Instruction

/-! ## Instructions that have a word -/

/-- A register slot is empty or names a register of the machine. -/
def SlotFits : Option Register → Prop
  | none => True
  | some register => register.index < 16

/-- A number slot is empty, or it names no label and holds a number in range. -/
def NumberFits (immediate : Immediate) : Prop :=
  immediate.present = true →
    immediate.label = "" ∧ -2048 ≤ immediate.value ∧ immediate.value ≤ 4095

/--
The operation exists, the register slots of both shapes fit, and so does the
number slot if the shape has one.
-/
structure Encodable (instruction : Instruction) : Prop where
  opcode : instruction.opcode < 29
  destination : SlotFits instruction.destination
  first : SlotFits instruction.first
  second : SlotFits instruction.second
  number : instruction.shape = .immediate → NumberFits instruction.immediate

theorem checkRegister_eq_ok_iff (slot : Option Register) :
    checkRegister slot = .ok () ↔ SlotFits slot := by
  cases slot with
  | none => simp [checkRegister, SlotFits]
  | some register =>
      by_cases fits : register.index < 16
      · simp [checkRegister, SlotFits, Register.count, fits]
      · simp [checkRegister, SlotFits, Register.count, fits]

theorem checkImmediate_eq_ok_iff (immediate : Immediate) :
    checkImmediate immediate = .ok () ↔ NumberFits immediate := by
  unfold checkImmediate NumberFits Immediate.unlinked inImmediateRange
    leastImmediate greatestImmediate
  by_cases present : immediate.present = true
  · by_cases label : immediate.label = ""
    · by_cases range : -2048 ≤ immediate.value ∧ immediate.value ≤ 4095
      · simp [present, label, range]
      · simp [present, label, range]
    · simp [present, label]
  · simp [present]

/--
An instruction has a word exactly if it is encodable, and then its word is that
of its bits.
-/
theorem encode_eq_ok_iff (instruction : Instruction) (word : Word) :
    instruction.encode = .ok word ↔
      Encodable instruction ∧
        UInt32.ofNat (instruction.headBits + instruction.operandBits) =
          word := by
  have checks : instruction.encode = .ok word ↔
      instruction.opcode < 29 ∧ checkRegister instruction.destination = .ok () ∧
        checkRegister instruction.first = .ok () ∧
        checkRegister instruction.second = .ok () ∧
          (instruction.shape = .immediate →
            checkImmediate instruction.immediate = .ok ()) ∧
            UInt32.ofNat (instruction.headBits + instruction.operandBits) =
              word := by
    simp only [encode, guard_eq_ok_iff, check_eq_ok_iff, conditional_eq_ok_iff,
      pure_eq_ok_iff, mnemonic?, Mnemonic.isNone_ofOpcode?_iff, not_not]
  rw [checks]
  simp only [checkRegister_eq_ok_iff, checkImmediate_eq_ok_iff]
  constructor
  · rintro ⟨opcode, destination, first, second, number, same⟩
    exact ⟨⟨opcode, destination, first, second, number⟩, same⟩
  · rintro ⟨⟨opcode, destination, first, second, number⟩, same⟩
    exact ⟨opcode, destination, first, second, number, same⟩

/-! ## Words that are instructions -/

/--
A word is an instruction if it has no bit above the twenty-fourth, its opcode
field is an opcode, and the bits above the two operand registers are clear
unless the immediate bit is set.
-/
structure Legible (word : Word) : Prop where
  narrow : word.toNat < 2 ^ 24
  opcode : word.toNat / 2 ^ 19 ≤ 28
  reserved :
    (∀ bit, 12 ≤ bit → bit ≤ 15 → word.toNat.testBit bit = false) ∨
      word.toNat.testBit 18 = true

/--
The instruction in the bits of a word, with every slot of its shape filled.
-/
def fields (bits : Nat) : Instruction :=
  if bits / 0x40000 % 2 = 1 then
    { opcode := bits / 0x80000
      shape := .immediate
      status := bits / 0x20000 % 2 == 1
      negate := bits / 0x10000 % 2 == 1
      destination := some ⟨bits % 16⟩
      immediate := .ofValue (bits / 16 % 4096 : Nat) }
  else
    { opcode := bits / 0x80000
      shape := .register
      status := bits / 0x20000 % 2 == 1
      negate := bits / 0x10000 % 2 == 1
      destination := some ⟨bits % 16⟩
      first := some ⟨bits / 256 % 16⟩
      second := some ⟨bits / 16 % 16⟩ }

/-- The reserved bits are the remainder that decoding tests. -/
theorem reserved_clear_iff (bits : Nat) :
    (∀ bit, 12 ≤ bit → bit ≤ 15 → bits.testBit bit = false) ↔
      bits / 0x1000 % 16 = 0 := by
  simp only [Nat.testBit_eq_decide_div_mod_eq, decide_eq_false_iff_not]
  constructor
  · intro clear
    have twelfth := clear 12 (by omega) (by omega)
    have thirteenth := clear 13 (by omega) (by omega)
    have fourteenth := clear 14 (by omega) (by omega)
    have fifteenth := clear 15 (by omega) (by omega)
    omega
  · intro clear bit above below
    have cases : bit = 12 ∨ bit = 13 ∨ bit = 14 ∨ bit = 15 := by omega
    rcases cases with rfl | rfl | rfl | rfl <;> omega

/-- The conditions of decoding in the arithmetic in which it tests them. -/
theorem legible_iff (word : Word) :
    Legible word ↔
      word.toNat < 0x1000000 ∧ word.toNat / 0x80000 < 29 ∧
        (word.toNat / 0x40000 % 2 = 1 ∨ word.toNat / 0x1000 % 16 = 0) := by
  have immediateBit : word.toNat.testBit 18 = true ↔
      word.toNat / 0x40000 % 2 = 1 := by
    simp [Nat.testBit_eq_decide_div_mod_eq]
  constructor
  · rintro ⟨narrow, opcode, reserved⟩
    rw [reserved_clear_iff, immediateBit] at reserved
    exact ⟨narrow, by omega, reserved.symm⟩
  · rintro ⟨narrow, opcode, reserved⟩
    refine ⟨narrow, by omega, ?_⟩
    rw [reserved_clear_iff, immediateBit]
    exact reserved.symm

/--
A word is an instruction exactly if it is legible, and then its instruction is
in its fields.
-/
theorem decode_eq_ok_iff (word : Word) (instruction : Instruction) :
    decode word = .ok instruction ↔
      Legible word ∧ fields word.toNat = instruction := by
  rw [legible_iff, ← Nat.not_le (b := word.toNat)]
  simp only [decode, fields, mnemonic?, Mnemonic.isNone_ofOpcode?_iff]
  by_cases wide : 0x1000000 ≤ word.toNat
  · simp only [wide, if_true, reduceCtorEq, not_true, false_and]
  by_cases opcode : word.toNat / 0x80000 < 29
  · by_cases shape : word.toNat / 0x40000 % 2 = 1
    · simp only [wide, opcode, shape, if_true, if_false, not_true,
        not_false_iff, true_and, true_or, Except.ok.injEq]
    · by_cases reserved : word.toNat / 0x1000 % 16 = 0
      · simp only [wide, opcode, shape, reserved, if_false, not_true,
          not_false_iff, true_and, false_or, ne_eq, Except.ok.injEq]
      · simp only [wide, opcode, shape, reserved, if_true, if_false, not_true,
          not_false_iff, true_and, or_self, false_and, ne_eq, reduceCtorEq]
  · simp only [wide, opcode, if_true, if_false, not_false_iff, reduceCtorEq,
      false_and, and_false]

/-! ## The bits of an instruction -/

theorem slotBits_lt {slot : Option Register} (fits : SlotFits slot) :
    slotBits slot < 16 := by
  cases slot with
  | none => simp [slotBits]
  | some register => simpa [slotBits, SlotFits] using fits

theorem materializedRegister_eq (slot : Option Register) :
    materializedRegister slot = some ⟨slotBits slot⟩ :=
  rfl

/-- The twelve bits of the number slot. -/
def numberBits (immediate : Immediate) : Nat :=
  if immediate.present then (immediate.value % 4096).toNat else 0

theorem numberBits_lt (immediate : Immediate) :
    numberBits immediate < 4096 := by
  unfold numberBits
  split <;> omega

/-- A number slot that fits is materialized as the value of its twelve bits. -/
theorem materializedImmediate_eq {immediate : Immediate}
    (fits : NumberFits immediate) :
    materializedImmediate immediate =
      .ofValue (numberBits immediate : Nat) := by
  unfold materializedImmediate numberBits
  by_cases present : immediate.present = true
  · have unnamed := (fits present).1
    have bits :
        ((immediate.value % 4096).toNat : Int) = immediate.value % 4096 := by
          omega
    simp only [present, unnamed, Bool.not_true, Bool.false_eq_true,
      if_false, if_true, beq_self_eq_true, Immediate.ofValue, bits]
  · simp [present]

theorem beq_toNat_one (bit : Bool) : (bit.toNat == 1) = bit := by
  cases bit <;> rfl

theorem operandBits_immediate {instruction : Instruction}
    (shape : instruction.shape = .immediate) :
    instruction.operandBits =
      numberBits instruction.immediate * 16 +
        slotBits instruction.destination := by
  simp [operandBits, numberBits, shape]

theorem operandBits_register {instruction : Instruction}
    (shape : instruction.shape = .register) :
    instruction.operandBits =
      slotBits instruction.first * 256 + slotBits instruction.second * 16 +
        slotBits instruction.destination := by
  simp [operandBits, shape]

theorem operandBits_lt {instruction : Instruction}
    (encodable : Encodable instruction) :
    instruction.operandBits < 0x10000 := by
  have destination := slotBits_lt encodable.destination
  cases shape : instruction.shape with
  | immediate =>
      have number := numberBits_lt instruction.immediate
      rw [operandBits_immediate shape]
      omega
  | register =>
      have first := slotBits_lt encodable.first
      have second := slotBits_lt encodable.second
      rw [operandBits_register shape]
      omega

/-- The bits of an encodable instruction fit in twenty-four bits. -/
theorem bits_lt {instruction : Instruction}
    (encodable : Encodable instruction) :
    instruction.headBits + instruction.operandBits < 0x1000000 := by
  have opcode := encodable.opcode
  have operands := operandBits_lt encodable
  have shape := (decide (instruction.shape = .immediate)).toNat_lt
  have status := instruction.status.toNat_lt
  have negate := instruction.negate.toNat_lt
  unfold headBits
  omega

/--
The bits above the payload can be read off the bits of an encodable instruction.
-/
theorem bits_fields {instruction : Instruction}
    (encodable : Encodable instruction) :
    (instruction.headBits + instruction.operandBits) / 0x80000 =
      instruction.opcode ∧
      (instruction.headBits + instruction.operandBits) / 0x40000 % 2 =
        (decide (instruction.shape = .immediate)).toNat ∧
      (instruction.headBits + instruction.operandBits) / 0x20000 % 2 =
        instruction.status.toNat ∧
      (instruction.headBits + instruction.operandBits) / 0x10000 % 2 =
        instruction.negate.toNat ∧
      (instruction.headBits + instruction.operandBits) % 0x10000 =
        instruction.operandBits := by
  have operands := operandBits_lt encodable
  have shape := (decide (instruction.shape = .immediate)).toNat_lt
  have status := instruction.status.toNat_lt
  have negate := instruction.negate.toNat_lt
  unfold headBits
  omega

/--
The fields of the bits of an encodable instruction are its materialized slots.
-/
theorem fields_bits {instruction : Instruction}
    (encodable : Encodable instruction) :
    fields (instruction.headBits + instruction.operandBits) =
      instruction.materialized := by
  have destination := slotBits_lt encodable.destination
  obtain ⟨opcodeField, shapeField, statusField, negateField, payloadField⟩ :=
    bits_fields encodable
  generalize instruction.headBits + instruction.operandBits = bits at *
  cases shape : instruction.shape with
  | immediate =>
      rw [operandBits_immediate shape] at payloadField
      have number := numberBits_lt instruction.immediate
      have destinationField : bits % 16 = slotBits instruction.destination := by
        omega
      have numberField :
          bits / 16 % 4096 = numberBits instruction.immediate := by omega
      simp only [shape, decide_true, Bool.toNat_true] at shapeField
      simp only [fields, opcodeField, shapeField, statusField, negateField,
        destinationField, numberField, beq_toNat_one, if_true, materialized,
        shape, materializedRegister_eq,
        materializedImmediate_eq (encodable.number shape)]
  | register =>
      rw [operandBits_register shape] at payloadField
      have first := slotBits_lt encodable.first
      have second := slotBits_lt encodable.second
      have destinationField : bits % 16 = slotBits instruction.destination := by
        omega
      have firstField : bits / 256 % 16 = slotBits instruction.first := by omega
      have secondField : bits / 16 % 16 = slotBits instruction.second := by
        omega
      simp only [shape, reduceCtorEq, decide_false,
        Bool.toNat_false] at shapeField
      simp only [fields, opcodeField, shapeField, statusField, negateField,
        destinationField, firstField, secondField, beq_toNat_one,
        Nat.zero_ne_one, if_false, materialized, shape, materializedRegister_eq,
        Immediate.absent]

theorem toNat_mod_two_beq_one (bits : Nat) :
    (bits % 2 == 1).toNat = bits % 2 := by
  rcases Nat.mod_two_eq_zero_or_one bits with clear | set
  · simp [clear]
  · simp [set]

/-- The instruction in the fields of a legible word is encodable. -/
theorem encodable_fields {word : Word} (legible : Legible word) :
    Encodable (fields word.toNat) := by
  have opcode := legible.opcode
  have register (bits : Nat) : SlotFits (some ⟨bits % 16⟩) :=
    Nat.mod_lt bits (by omega)
  unfold fields
  split
  · refine ⟨by change word.toNat / 0x80000 < 29; omega, register _, trivial,
      trivial, ?_⟩
    intro _ _
    refine ⟨rfl, ?_, ?_⟩
    · change (-2048 : Int) ≤ (word.toNat / 16 % 4096 : Nat)
      omega
    · change ((word.toNat / 16 % 4096 : Nat) : Int) ≤ 4095
      omega
  · refine ⟨by change word.toNat / 0x80000 < 29; omega, register _, register _,
      register _, ?_⟩
    intro shape
    cases shape

/-- The bits of a legible word are those of the instruction in its fields. -/
theorem bits_of_fields {word : Word} (legible : Legible word) :
    (fields word.toNat).headBits + (fields word.toNat).operandBits =
      word.toNat := by
  obtain ⟨narrow, opcode, reserved⟩ := (legible_iff word).mp legible
  generalize word.toNat = bits at *
  by_cases shape : bits / 0x40000 % 2 = 1
  · have number :
        ((bits / 16 % 4096 : Nat) : Int) % 4096 = (bits / 16 % 4096 : Nat) := by
          omega
    simp only [fields, headBits, operandBits, slotBits, Immediate.ofValue,
      shape, if_true, decide_true, Bool.toNat_true, toNat_mod_two_beq_one,
      Option.getD_some, number, Int.toNat_natCast]
    omega
  · have clear : bits / 0x1000 % 16 = 0 := reserved.resolve_left shape
    simp only [fields, headBits, operandBits, slotBits, shape, if_false,
      reduceCtorEq, decide_false, Bool.toNat_false, toNat_mod_two_beq_one,
      Option.getD_some]
    omega

/-! ## Encoding and decoding together -/

/-- Decoding the word of an instruction gives its materialized slots. -/
theorem decode_of_encode {instruction : Instruction} {word : Word}
    (encoded : instruction.encode = .ok word) :
    word.toNat < 2 ^ 24 ∧ decode word = .ok instruction.materialized := by
  obtain ⟨encodable, rfl⟩ := (encode_eq_ok_iff instruction word).mp encoded
  have narrow := bits_lt encodable
  obtain ⟨opcodeField, shapeField, -, -, payloadField⟩ := bits_fields encodable
  have opcode := encodable.opcode
  have toNat :
      (UInt32.ofNat (instruction.headBits + instruction.operandBits)).toNat =
      instruction.headBits + instruction.operandBits :=
    UInt32.toNat_ofNat_of_lt' (by change _ < 2 ^ 32; omega)
  refine ⟨by rw [toNat]; exact narrow, ?_⟩
  rw [decode_eq_ok_iff, legible_iff, toNat]
  refine ⟨⟨narrow, by omega, ?_⟩, fields_bits encodable⟩
  cases shape : instruction.shape with
  | immediate =>
      left
      rw [shapeField, shape]
      rfl
  | register =>
      right
      have destination := slotBits_lt encodable.destination
      have first := slotBits_lt encodable.first
      have second := slotBits_lt encodable.second
      rw [operandBits_register shape] at payloadField ⊢
      omega

/-- Encoding the instruction of a word gives the word back. -/
theorem encode_of_decode {word : Word} {instruction : Instruction}
    (decoded : decode word = .ok instruction) :
    instruction.encode = .ok word := by
  obtain ⟨legible, rfl⟩ := (decode_eq_ok_iff word instruction).mp decoded
  rw [encode_eq_ok_iff, bits_of_fields legible]
  exact ⟨encodable_fields legible, UInt32.ofNat_toNat⟩

/--
Two instructions that have words have the same word exactly if they materialize
alike.
-/
theorem encode_eq_iff_materialized_eq {left right : Instruction}
    {leftWord rightWord : Word} (leftEncoded : left.encode = .ok leftWord)
    (rightEncoded : right.encode = .ok rightWord) :
    leftWord = rightWord ↔ left.materialized = right.materialized := by
  have leftDecoded := (decode_of_encode leftEncoded).2
  have rightDecoded := (decode_of_encode rightEncoded).2
  constructor
  · rintro rfl
    exact Except.ok.inj (leftDecoded.symm.trans rightDecoded)
  · intro same
    rw [same] at leftDecoded
    have leftAgain := encode_of_decode leftDecoded
    have rightAgain := encode_of_decode rightDecoded
    exact Except.ok.inj (leftAgain.symm.trans rightAgain)

/--
Encoding and decoding are inverse to each other.  An instruction has a word
exactly if it is encodable; the word has twenty-four bits and decodes to the
instruction with the slots of its shape filled, so that instructions share a
word exactly if these agree.  A word is an instruction exactly if it is legible,
and then it is the word of that instruction.
-/
theorem encode_decode_inverse :
    (∀ instruction : Instruction,
      (∃ word, instruction.encode = .ok word) ↔ Encodable instruction) ∧
    (∀ (instruction : Instruction) (word : Word),
      instruction.encode = .ok word →
      word.toNat < 2 ^ 24 ∧ decode word = .ok instruction.materialized) ∧
    (∀ (left right : Instruction) (leftWord rightWord : Word),
      left.encode = .ok leftWord → right.encode = .ok rightWord →
        (leftWord = rightWord ↔ left.materialized = right.materialized)) ∧
    (∀ word : Word, (∃ instruction, decode word = .ok instruction) ↔
      Legible word) ∧
    (∀ (word : Word) (instruction : Instruction),
      decode word = .ok instruction →
      instruction.encode = .ok word) ∧
    ∀ word : Word,
      (∃ instruction, decode word = .ok instruction) ↔
        ∃ instruction : Instruction, instruction.encode = .ok word := by
  refine ⟨?_, ?_, ?_, ?_, ?_, ?_⟩
  · intro instruction
    simp [encode_eq_ok_iff]
  · intro instruction word encoded
    exact decode_of_encode encoded
  · intro left right leftWord rightWord leftEncoded rightEncoded
    exact encode_eq_iff_materialized_eq leftEncoded rightEncoded
  · intro word
    simp [decode_eq_ok_iff]
  · intro word instruction decoded
    exact encode_of_decode decoded
  · intro word
    constructor
    · rintro ⟨instruction, decoded⟩
      exact ⟨instruction, encode_of_decode decoded⟩
    · rintro ⟨instruction, encoded⟩
      exact ⟨_, (decode_of_encode encoded).2⟩

/--
A number below zero and a register that its shape does not have, and what
decoding makes of them.
-/
theorem encode_decode_minus_one :
    encode ⟨2, .immediate, true, false, some ⟨3⟩, some ⟨7⟩, none,
      .ofValue (-1)⟩ =
      .ok 0x16FFF3 ∧
    decode 0x16FFF3 =
      .ok ⟨2, .immediate, true, false, some ⟨3⟩, none, none, .ofValue 4095⟩ ∧
    encode ⟨2, .immediate, true, false, some ⟨3⟩, none, none, .ofValue 4095⟩ =
      .ok 0x16FFF3 := by
  have encoded :
      encode ⟨2, .immediate, true, false, some ⟨3⟩, some ⟨7⟩, none,
        .ofValue (-1)⟩ =
      .ok 0x16FFF3 := rfl
  have decoded := (encode_decode_inverse.2.1 _ _ encoded).2
  exact ⟨encoded, decoded, encode_decode_inverse.2.2.2.2.1 _ _ decoded⟩

end Instruction

end Asm24.Machine
