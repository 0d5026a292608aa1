import Asm24.Proofs.Failure

/-!
# Numbers that fit and numbers that do not

Every text is a literal in signed 64-bit range, a literal outside it, or no
literal at all.  The first is read as the number that it spells.  The second is
refused for its size, as too small if it has a minus sign and as too large
otherwise, however long it is.  The third is refused as well, and the kind of
all refusals is that of immediate operands.

An octal literal with the digit eight belongs to the third class, although its
form is recognized.
-/

namespace Asm24.Assembly

open Asm24.Machine
open Asm24.Proofs

namespace Literal

theorem isNegative_iff {word : List Char} :
    isNegative word = true ↔ word.head? = some '-' := by
  unfold isNegative
  split
  case h_1 => simp
  case h_2 other =>
    cases word with
    | nil => simp
    | cons first rest =>
        have noSign : first ≠ '-' := by
          rintro rfl
          exact other rest rfl
        simp [noSign]

/-- The refusal of a number in the direction of the sign of its literal. -/
theorem message_rangeFault (text : String) :
    (rangeFault .immediate (isNegative text.toList) text).message =
      if text.toList.head? = some '-' then
        "immediate " ++ text ++
          " is too small, must be greater than or equal to -2048"
      else
        "immediate " ++ text ++
          " is too large, must be less than or equal to 4095" := by
  by_cases sign : text.toList.head? = some '-'
  · rw [isNegative_iff.mpr sign, if_pos sign]
    exact String.append_assoc
  · have noSign : isNegative text.toList = false := by
      rwa [← Bool.not_eq_true, isNegative_iff]
    rw [noSign, if_neg sign]
    exact String.append_assoc

/-- A literal of a number that does not fit is refused for its size. -/
theorem number_of_outside {text : String} {value : Int}
    (spells : Spells text.toList value)
    (outside : ¬ (-2 ^ 63 ≤ value ∧ value < 2 ^ 63)) :
    number text =
      .error (rangeFault .immediate (isNegative text.toList) text) := by
  rw [number, read_of_spells spells, if_neg outside]

end Literal

/--
Immediate operands are numbers behind a number sign that an instruction can
hold.
-/
theorem readImmediate_eq_ofValue_iff {word : String} {value : Int} :
    readImmediate word = .ok (.ofValue value) ↔
      ∃ text, word = "#" ++ text ∧ Literal.number text = .ok value ∧
        -2048 ≤ value ∧ value ≤ 4095 := by
  rw [readImmediate_iff]
  constructor
  · rintro (⟨label, same⟩ | ⟨literal, number, rfl, read, low, high, same⟩)
    · have empty : word = "" := congrArg Immediate.label same
      rw [empty] at label
      cases label
    · obtain rfl : number = value := congrArg Immediate.value same
      refine ⟨String.ofList literal, ?_, ?_, low, high⟩
      · rw [← String.toList_inj]
        simp
      · rwa [number_eq_ok_iff, String.toList_ofList]
  · rintro ⟨text, rfl, read, low, high⟩
    refine Or.inr ⟨text.toList, value, ?_, number_eq_ok_iff.mp read, low,
      high, rfl⟩
    rw [← String.toList_inj]
    simp

/--
A text is read as a number exactly if it spells this number and the number is in
signed 64-bit range.  A text that spells another number is refused for its size,
and a text that spells none is refused.  A word writes a number as an immediate
operand exactly if it is a number sign and a text that is read as a number of
twelve bits, signed or unsigned.
-/
theorem literal_meaning :
    (∀ text value, Literal.number text = .ok value ↔
      Spells text.toList value ∧ -2 ^ 63 ≤ value ∧ value ≤ 2 ^ 63 - 1) ∧
    (∀ text value, Spells text.toList value →
      ¬ (-2 ^ 63 ≤ value ∧ value ≤ 2 ^ 63 - 1) →
      ∃ fault, Literal.number text = .error fault ∧ fault.kind = .immediates ∧
        fault.message =
          if text.toList.head? = some '-' then
            "immediate " ++ text ++
              " is too small, must be greater than or equal to -2048"
          else
            "immediate " ++ text ++
              " is too large, must be less than or equal to 4095") ∧
    (∀ text, (∀ value, ¬ Spells text.toList value) →
      ∃ fault, Literal.number text = .error fault ∧ fault.kind = .immediates) ∧
    ∀ word value, readImmediate word = .ok (.ofValue value) ↔
      ∃ text, word = "#" ++ text ∧ Literal.number text = .ok value ∧
        -2048 ≤ value ∧ value ≤ 4095 := by
  have read_iff (text : String) (value : Int) :
      Literal.number text = .ok value ↔
        Spells text.toList value ∧ -2 ^ 63 ≤ value ∧ value ≤ 2 ^ 63 - 1 := by
    rw [number_eq_ok_iff, read_eq_ok_iff, Int.le_sub_one_iff]
  refine ⟨read_iff, ?_, ?_, fun _ _ => readImmediate_eq_ofValue_iff⟩
  · intro text value spells outside
    rw [Int.le_sub_one_iff] at outside
    exact ⟨_, Literal.number_of_outside spells outside,
      Literal.kind_rangeFault .immediate _ text,
      Literal.message_rangeFault text⟩
  · intro text noLiteral
    cases read : Literal.number text with
    | ok value =>
        exact absurd ((read_iff text value).mp read).1 (noLiteral value)
    | error fault =>
        have kind : fault.kind ∈ [Kind.immediates] :=
          Literal.number_failsOnly (List.mem_singleton.mpr rfl) text fault read
        exact ⟨fault, rfl, List.mem_singleton.mp kind⟩

/--
Literals at the limits of the range and beyond them, and one with an improper
digit.
-/
theorem literal_meaning_limits :
    Spells "0x7fffFFFFffffFFFF".toList (2 ^ 63 - 1) ∧
      Spells "-9223372036854775809".toList (-9223372036854775809) ∧
      (∃ fault, Literal.number "-9223372036854775809" = .error fault ∧
        fault.kind = .immediates ∧
        fault.message = "immediate -9223372036854775809 is too small, " ++
          "must be greater than or equal to -2048") ∧
      (∀ value, ¬ Spells "0c18".toList value) ∧
      (∃ fault, Literal.number "0c18" = .error fault ∧
        fault.kind = .immediates) ∧
      ∃ text, "#-2048" = "#" ++ text ∧ Literal.number text = .ok (-2048) ∧
        (-2048 : Int) ≤ -2048 ∧ (-2048 : Int) ≤ 4095 := by
  rcases literal_meaning with ⟨read, outside, unread, immediate⟩
  have wide :
      Spells "-9223372036854775809".toList (-(9223372036854775809 : Nat)) :=
    .negative ((Text.readNatural_eq_ok_iff (by decide) (by decide)).mp rfl).1
  have improper : ∀ value, ¬ Spells "0c18".toList value := by
    intro value spells
    have malformed : Literal.read "0c18".toList = .error .malformed := rfl
    rw [read_of_spells spells] at malformed
    split at malformed <;> cases malformed
  refine ⟨((read _ _).mp rfl).1, wide, outside _ _ wide (by decide), improper,
    unread _ improper, (immediate _ _).mp rfl⟩

end Asm24.Assembly
