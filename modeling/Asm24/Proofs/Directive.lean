import Asm24.Assembly.Allocation
import Asm24.Proofs.Grammar

/-!
# The grammar of directive lines

A directive reserves one word for an integer, or the words of an array, which
hold a value or zero.  Its numbers are literals with a number sign before them
or none.  `Directive` states this by the words of the line alone, together with
how many words they reserve and for which value.  `read_iff_directive` says that
the reader accepts exactly these lines.
-/

namespace Asm24.Assembly

open Asm24.Proofs

/-- A literal, behind one number sign or none. -/
def IsDataNumber (word : String) (value : Int) : Prop :=
  ∃ literal, Spells literal value ∧
    (word.toList = literal ∨ word.toList = '#' :: literal)

/--
The words of a directive, how many words of memory it reserves, and the value of
these.
-/
inductive Directive : List String → Nat → Int → Prop where
  | integer {word : String} {value : Int} (number : IsDataNumber word value)
      (range : -2048 ≤ value ∧ value ≤ 4095) : Directive [".INT", word] 1 value
  | array {word : String} {size : Nat} (number : IsDataNumber word size)
      (range : 1 ≤ size ∧ size ≤ 0x1FF) : Directive [".ARR", word] size 0
  | filled {sizeWord valueWord : String} {size : Nat} {value : Int}
      (sizeNumber : IsDataNumber sizeWord size)
      (sizeRange : 1 ≤ size ∧ size ≤ 0x1FF)
      (valueNumber : IsDataNumber valueWord value)
      (valueRange : -2048 ≤ value ∧ value ≤ 4095) :
      Directive [".ARR", sizeWord, valueWord] size value

theorem Directive.bounds {tokens : List String} {size : Nat} {value : Int}
    (directive : Directive tokens size value) :
    (1 ≤ size ∧ size ≤ 0x1FF) ∧ -2048 ≤ value ∧ value ≤ 4095 := by
  cases directive with
  | integer number range => exact ⟨by decide, range⟩
  | array number range => exact ⟨range, by decide⟩
  | filled sizeNumber sizeRange valueNumber valueRange =>
      exact ⟨sizeRange, valueRange⟩

theorem Directive.toNat_size {tokens : List String} {size : Nat} {value : Int}
    (directive : Directive tokens size value) :
    (UInt32.ofNat size).toNat = size := by
  have bounds := directive.bounds.1
  rw [UInt32.toNat_ofNat']
  omega

/-! ## Numbers -/

/-- No literal starts with a number sign, so that at most one is dropped. -/
theorem Spells.withoutHash {literal : List Char} {value : Int}
    (spells : Spells literal value) :
    Token.withoutHash literal = literal := by
  cases spells with
  | marked => rfl
  | negative => rfl
  | decimal numeral =>
      unfold Token.withoutHash
      split
      case h_1 =>
        cases isDigit_head_of_isRun (@isRun_of_isNumeral .decimal _ _ numeral)
      case h_2 => rfl

theorem isDataNumber_iff {word : String} {value : Int} :
    IsDataNumber word value ↔ Spells (Token.withoutHash word.toList) value := by
  constructor
  · rintro ⟨literal, spells, same | same⟩
    · rwa [same, spells.withoutHash]
    · rwa [same]
  · intro spells
    refine ⟨_, spells, ?_⟩
    unfold Token.withoutHash
    split
    case h_1 => exact Or.inr ‹_›
    case h_2 => exact Or.inl rfl

namespace Allocation

theorem readValue_eq_ok_iff {word : String} {value : Int} :
    readValue word = .ok value ↔
      IsDataNumber word value ∧ -2048 ≤ value ∧ value ≤ 4095 := by
  rw [isDataNumber_iff]
  constructor
  · intro written
    simp only [readValue] at written
    split at written
    case h_1 number read =>
      rcases checkRange_eq_ok_iff.mp written with ⟨low, high, rfl⟩
      exact ⟨(read_eq_ok_iff.mp read).1, low, high⟩
    case h_2 => cases written
    case h_3 => cases written
  · rintro ⟨spells, low, high⟩
    have read := read_eq_ok_iff.mpr ⟨spells, by omega, by omega⟩
    simp only [readValue, read]
    exact checkRange_eq_ok_iff.mpr ⟨low, high, rfl⟩

theorem readSize_eq_ok_iff {word : String} {size : UInt32} :
    readSize word = .ok size ↔
      ∃ number : Nat, IsDataNumber word number ∧ (1 ≤ number ∧ number ≤ 0x1FF) ∧
        UInt32.ofNat number = size := by
  have capacity : (Machine.Region.readOnly.size.toNat : Int) = 0x1FF := rfl
  simp only [isDataNumber_iff, readSize, capacity]
  constructor
  · intro written
    split at written
    case h_1 => cases written
    case h_2 number read =>
      split at written
      case isTrue => cases written
      case isFalse positive =>
        split at written
        case isTrue => cases written
        case isFalse fits =>
          cases written
          refine ⟨number.toNat, ?_, by omega, rfl⟩
          rw [Int.toNat_of_nonneg (by omega)]
          exact (read_eq_ok_iff.mp read).1
  · rintro ⟨number, spells, range, rfl⟩
    have read := read_eq_ok_iff.mpr ⟨spells, by omega, by omega⟩
    have positive : ¬ (number : Int) < 1 := by omega
    have fits : ¬ (0x1FF : Int) < number := by omega
    simp only [read, positive, fits, if_false, Int.toNat_natCast]

/-- The lines that write an allocation are the directives, at any offset. -/
theorem read_iff_directive {tokens : List String} {offset : UInt32}
    {allocation : Allocation} :
    read tokens offset = .ok allocation ↔
      ∃ size value, Directive tokens size value ∧
        allocation = ⟨offset, UInt32.ofNat size, value, 0⟩ := by
  constructor
  · intro written
    unfold read at written
    split at written
    case h_1 => cases written
    case h_2 =>
      split at written
      case h_1 word =>
        rcases bind_eq_ok_iff.mp written with ⟨value, valued, same⟩
        cases same
        rcases readValue_eq_ok_iff.mp valued with ⟨number, range⟩
        exact ⟨1, value, .integer number range, rfl⟩
      case h_2 => cases written
    case h_3 =>
      split at written
      case h_1 word =>
        rcases bind_eq_ok_iff.mp written with ⟨_, sized, same⟩
        cases same
        rcases readSize_eq_ok_iff.mp sized with ⟨size, number, range, rfl⟩
        exact ⟨size, 0, .array number range, rfl⟩
      case h_2 sizeWord valueWord =>
        rcases bind_eq_ok_iff.mp written with ⟨_, sized, rest⟩
        rcases bind_eq_ok_iff.mp rest with ⟨value, valued, same⟩
        cases same
        rcases readSize_eq_ok_iff.mp sized with
          ⟨size, sizeNumber, sizeRange, rfl⟩
        rcases readValue_eq_ok_iff.mp valued with ⟨valueNumber, valueRange⟩
        exact ⟨size, value, .filled sizeNumber sizeRange valueNumber valueRange,
          rfl⟩
      case h_3 => cases written
    case h_4 => cases written
    case h_5 => cases written
  · rintro ⟨size, value, directive, rfl⟩
    cases directive with
    | integer number range =>
        exact bind_eq_ok_iff.mpr ⟨_, readValue_eq_ok_iff.mpr ⟨number, range⟩,
          rfl⟩
    | array number range =>
        exact bind_eq_ok_iff.mpr
          ⟨_, readSize_eq_ok_iff.mpr ⟨_, number, range, rfl⟩, rfl⟩
    | filled sizeNumber sizeRange valueNumber valueRange =>
        exact bind_eq_ok_iff.mpr
          ⟨_, readSize_eq_ok_iff.mpr ⟨_, sizeNumber, sizeRange, rfl⟩,
            bind_eq_ok_iff.mpr ⟨_, readValue_eq_ok_iff.mpr ⟨valueNumber,
              valueRange⟩, rfl⟩⟩

/-- An allocation has the offset at which it is read. -/
theorem offset_of_read {tokens : List String} {offset : UInt32}
    {allocation : Allocation} (written : read tokens offset = .ok allocation) :
    allocation.offset = offset := by
  rcases read_iff_directive.mp written with ⟨size, value, directive, rfl⟩
  rfl

/-- An allocation has at least one word and no more than the region. -/
theorem read_bounds {tokens : List String} {offset : UInt32}
    {allocation : Allocation} (written : read tokens offset = .ok allocation) :
    1 ≤ allocation.size.toNat ∧ allocation.size.toNat ≤ 0x1FF := by
  rcases read_iff_directive.mp written with ⟨size, value, directive, rfl⟩
  rw [directive.toNat_size]
  exact directive.bounds.1

end Allocation

end Asm24.Assembly
