/-!
# Numerals

Writing natural numbers in hexadecimal with a least width, and reading digit
strings of any base up to sixteen into 64-bit range.  Settings also mark the
base in the number itself.

Reading goes from left to right and stops at the first fault, so a string that
overflows before its first improper digit overflows, and one whose improper
digit comes first is malformed.
-/

namespace Asm24.Text

/--
Lower-case hexadecimal digits, filled with zeros on the left up to `width`.
-/
def hexLower (width value : Nat) : String :=
  String.ofList ((Nat.toDigits 16 value).leftpad width '0')

/--
Upper-case hexadecimal digits, filled with zeros on the left up to `width`.
-/
def hexUpper (width value : Nat) : String :=
  String.ofList (((Nat.toDigits 16 value).map Char.toUpper).leftpad width '0')

/-- The value of a hexadecimal digit of either case. -/
def digitValue? (char : Char) : Option Nat :=
  if '0' ≤ char ∧ char ≤ '9' then
    some (char.toNat - 48)
  else if 'a' ≤ char ∧ char ≤ 'f' then
    some (char.toNat - 87)
  else if 'A' ≤ char ∧ char ≤ 'F' then
    some (char.toNat - 55)
  else
    none

/-- Why a digit string has no 64-bit value. -/
inductive NumeralFault where
  /-- A character is no digit of the base, or there is no digit. -/
  | malformed
  /-- The value does not fit. -/
  | overflow
  deriving DecidableEq, Repr

/--
Append the digits to a value that is already read, in unsigned 64-bit range.
-/
def readDigits (base : Nat) : Nat → List Char → Except NumeralFault Nat
  | value, [] => .ok value
  | value, char :: rest =>
      match digitValue? char with
      | none => .error .malformed
      | some digit =>
          if base ≤ digit then
            .error .malformed
          else if 0x10000000000000000 ≤ value * base + digit then
            .error .overflow
          else
            readDigits base (value * base + digit) rest

/-- The natural number that a non-empty digit string spells. -/
def readNatural (base : Nat) (digits : List Char) : Except NumeralFault Nat :=
  if digits.isEmpty then .error .malformed else readDigits base 0 digits

/-- The signed 64-bit number of a sign and a magnitude. -/
def signed (negative : Bool) (magnitude : Nat) : Except NumeralFault Int :=
  if negative then
    if 0x8000000000000000 < magnitude then
      .error .overflow
    else
      .ok (-magnitude)
  else
    if 0x8000000000000000 ≤ magnitude then .error .overflow else .ok magnitude

/-- The signed 64-bit number that a sign and a digit string spell. -/
def readSigned (base : Nat) (negative : Bool) (digits : List Char) :
    Except NumeralFault Int := do
  let magnitude ← readNatural base digits
  signed negative magnitude

/--
The base that the start of an unsigned integer marks, and the digits after the
mark.
-/
def baseMark : List Char → Nat × List Char
  | '0' :: mark :: digit :: rest =>
      if mark = 'b' ∨ mark = 'B' then (2, digit :: rest)
      else if mark = 'o' ∨ mark = 'O' then (8, digit :: rest)
      else if mark = 'x' ∨ mark = 'X' then (16, digit :: rest)
      else (8, mark :: digit :: rest)
  | '0' :: rest => (8, rest)
  | digits => (10, digits)

/--
Whether each underscore stands between two digits, or between a base mark and a
digit.
-/
def separated : (afterDigit : Bool) → List Char → Bool
  | _, [] => true
  | afterDigit, '_' :: rest =>
      afterDigit && !rest.isEmpty && separated false rest
  | _, _ :: rest => separated true rest

/--
The integer that a setting spells: a sign, a base mark and digits, between which
underscores may stand.
-/
def readInteger (text : List Char) : Except NumeralFault Int :=
  let (negative, unsigned) :=
    match text with
    | '-' :: rest => (true, rest)
    | '+' :: rest => (false, rest)
    | rest => (false, rest)
  let (base, digits) := baseMark unsigned
  if unsigned.isEmpty then
    .error .malformed
  else do
    let magnitude ← readDigits base 0 (digits.filter (· != '_'))
    if !separated (base != 10) digits then
      .error .malformed
    signed negative magnitude

end Asm24.Text
