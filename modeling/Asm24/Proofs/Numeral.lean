import Asm24.Text.Numeral
import Asm24.Proofs.Success
import Mathlib.Algebra.Group.Nat.Defs

/-!
# Reading numerals back

A number that is written in hexadecimal is read back, whatever zeros fill it up
on the left, if it fits in 64 bits.
-/

namespace Asm24.Text

open Asm24.Proofs

/-- The upper-case digits of a number that is written in hexadecimal. -/
def hexDigit (digit : Nat) : Char :=
  (Nat.digitChar digit).toUpper

theorem digitValue?_hexDigit {digit : Nat} (small : digit < 16) :
    digitValue? (hexDigit digit) = some digit := by
  have every : ∀ digit < 16, digitValue? (hexDigit digit) = some digit := by
    decide
  exact every digit small

/-- Reading goes from left to right. -/
theorem readDigits_append (base value : Nat) (first second : List Char) :
    readDigits base value (first ++ second) =
      readDigits base value first >>= fun middle =>
        readDigits base middle second := by
  induction first generalizing value with
  | nil => rfl
  | cons char rest ih =>
      simp only [List.cons_append, readDigits]
      cases digitValue? char with
      | none => rfl
      | some digit =>
          by_cases improper : base ≤ digit
          · simp only [improper, if_true]
            rfl
          · by_cases overflow : 0x10000000000000000 ≤ value * base + digit
            · simp only [improper, overflow, if_true, if_false]
              rfl
            · simp only [improper, overflow, if_false, ih]

/-- One more digit is read if the value still fits. -/
theorem readDigits_hexDigit {value digit : Nat} (small : digit < 16)
    (fits : value * 16 + digit < 2 ^ 64) :
    readDigits 16 value [hexDigit digit] = .ok (value * 16 + digit) := by
  have room : ¬ 0x10000000000000000 ≤ value * 16 + digit := by omega
  simp only [readDigits, digitValue?_hexDigit small, Nat.not_le.mpr small, room,
    if_false]

/-- The digits of a number are read back. -/
theorem readDigits_toDigits {value : Nat} (fits : value < 2 ^ 64) :
    readDigits 16 0 ((Nat.toDigits 16 value).map Char.toUpper) = .ok value := by
  induction value using Nat.strongRecOn with
  | ind value ih =>
      by_cases small : value < 16
      · rw [Nat.toDigits_of_lt_base small]
        have read := @readDigits_hexDigit 0 value small (by omega)
        rwa [Nat.zero_mul, Nat.zero_add] at read
      · have inner := ih (value / 16) (by omega) (by omega)
        have last : value / 16 * 16 + value % 16 = value := by omega
        rw [Nat.toDigits_of_base_le (by omega) (by omega), List.map_append,
          readDigits_append, inner]
        have read :=
          @readDigits_hexDigit (value / 16) (value % 16) (by omega) (by omega)
        rw [last] at read
        exact read

theorem readDigits_zeros (count : Nat) :
    readDigits 16 0 (List.replicate count '0') = .ok 0 := by
  have zero : digitValue? '0' = some 0 := by decide
  induction count with
  | zero => rfl
  | succ count ih => simp [List.replicate_succ, readDigits, zero, ih]

/-- A number in hexadecimal is read back. -/
theorem readNatural_hexUpper (width : Nat) {value : Nat}
    (fits : value < 2 ^ 64) :
    readNatural 16 (hexUpper width value).toList = .ok value := by
  have digits : (hexUpper width value).toList.isEmpty = false := by
    simp [hexUpper, List.leftpad, Nat.toDigits_ne_nil]
  rw [readNatural, digits]
  simp only [hexUpper, String.toList_ofList, List.leftpad, readDigits_append,
    readDigits_zeros]
  exact readDigits_toDigits fits

theorem mem_toDigits {value : Nat} {char : Char}
    (member : char ∈ (Nat.toDigits 16 value).map Char.toUpper) :
    ∃ digit < 16, char = hexDigit digit := by
  induction value using Nat.strongRecOn with
  | ind value ih =>
      by_cases small : value < 16
      · rw [Nat.toDigits_of_lt_base small] at member
        exact ⟨value, small, by simpa [hexDigit] using member⟩
      · rw [Nat.toDigits_of_base_le (by omega) (by omega), List.map_append,
          List.mem_append] at member
        rcases member with earlier | last
        · exact ih (value / 16) (by omega) earlier
        · exact ⟨value % 16, by omega, by simpa [hexDigit] using last⟩

/-- A number in hexadecimal is written with the digits of that base. -/
theorem mem_hexUpper {width value : Nat} {char : Char}
    (member : char ∈ (hexUpper width value).toList) :
    ∃ digit < 16, char = hexDigit digit := by
  simp only [hexUpper, String.toList_ofList, List.leftpad,
    List.mem_append] at member
  rcases member with filling | digit
  · exact ⟨0, by decide, List.eq_of_mem_replicate filling⟩
  · exact mem_toDigits digit

end Asm24.Text
