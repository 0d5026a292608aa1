/-!
# Binary floating point

Numbers of 64 bits in binary floating point, read from decimals and written as
decimals.

A decimal is read as the nearest such number, with ties to the even significand;
it has none if it lies beyond the largest.  A number is written positionally,
with the fewest digits that read back as the same number, and of those the
nearest to it.  Both directions are exact integer arithmetic.
-/

namespace Asm24.Text

/-- A number in binary floating point. -/
inductive Binary64 where
  /-- A multiple of a power of two. -/
  | finite (negative : Bool) (significand : Nat) (exponent : Int)
  | infinite (negative : Bool)
  | notANumber
  deriving DecidableEq, Repr

/-- A decimal: `digits` times a power of ten. -/
structure Decimal where
  negative : Bool := false
  digits : Nat
  exponent : Int
  deriving DecidableEq, Repr

/-- How many decimal digits a number has. -/
def decimalLength (value : Nat) : Nat :=
  (Nat.toDigits 10 value).length

/--
A quotient that is rounded to the nearest integer, with ties to the even one.
-/
def roundedQuotient (numerator denominator : Nat) : Nat :=
  let quotient := numerator / denominator
  let twice := 2 * (numerator % denominator)
  if twice < denominator ∨ (twice = denominator ∧ quotient % 2 = 0) then
    quotient
  else
    quotient + 1

/-- The fraction of a number times a power of a base. -/
def scaled (base : Nat) (exponent : Int) (fraction : Nat × Nat) : Nat × Nat :=
  (fraction.1 * base.pow exponent.toNat,
    fraction.2 * base.pow (-exponent).toNat)

namespace Decimal

/-- The digits at the start of a text, with the text after them. -/
def digitRun (text : List Char) : List Char × List Char :=
  (text.takeWhile Char.isDigit, text.dropWhile Char.isDigit)

/-- The number that some digits spell. -/
def ofDigits (digits : List Char) : Nat :=
  digits.foldl (fun value digit => 10 * value + (digit.toNat - 48)) 0

/-- A sign at the start of a text, with the text after it. -/
def sign : List Char → Bool × List Char
  | '-' :: rest => (true, rest)
  | '+' :: rest => (false, rest)
  | text => (false, text)

/-- The power of ten that the end of a decimal marks. -/
def readExponent? : List Char → Option Int
  | [] => some 0
  | mark :: rest =>
      let (negative, digits) := sign rest
      if (mark = 'e' ∨ mark = 'E') ∧ !digits.isEmpty ∧
        digits.all Char.isDigit then
        some (if negative then -(ofDigits digits : Int) else ofDigits digits)
      else
        none

/--
A decimal with a sign, a point and an exponent, each of which may be missing.
-/
def read? (text : List Char) : Option Decimal := do
  let (negative, unsigned) := sign text
  let (whole, rest) := digitRun unsigned
  let (fraction, rest) :=
    match rest with
    | '.' :: rest => digitRun rest
    | rest => ([], rest)
  if whole.isEmpty && fraction.isEmpty then
    none
  else
    let exponent ← readExponent? rest
    let digits := ofDigits (whole ++ fraction)
    return { negative, digits, exponent := exponent - fraction.length }

/--
The significand and the exponent of the number that is nearest to a positive
fraction.
-/
def nearestSignificand (fraction : Nat × Nat) : Nat × Int :=
  let size : Int := (Nat.log2 fraction.1 : Int) - (Nat.log2 fraction.2 : Int)
  let low : Int := max (size - 53) (-1074)
  let shifted := scaled 2 (-low) fraction
  let exponent :=
    if 0x20000000000000 ≤ shifted.1 / shifted.2 then low + 1 else low
  let shifted := scaled 2 (-exponent) fraction
  let significand := roundedQuotient shifted.1 shifted.2
  if significand = 0x20000000000000 then
    (0x10000000000000, exponent + 1)
  else
    (significand, exponent)

/--
The number that is nearest to a decimal, unless the decimal lies beyond the
largest one.  Decimals far outside the range are told by their length alone.
-/
def toBinary64? (decimal : Decimal) : Option Binary64 :=
  let size : Int := decimalLength decimal.digits + decimal.exponent
  if decimal.digits = 0 ∨ size < -330 then
    some (.finite decimal.negative 0 0)
  else if 310 < size then
    none
  else
    let (significand, exponent) :=
      nearestSignificand (scaled 10 decimal.exponent (decimal.digits, 1))
    if 971 < exponent then
      none
    else
      some (.finite decimal.negative significand exponent)

/-- A decimal without zeros at the end of its digits. -/
def strip : (places : Nat) → Decimal → Decimal
  | 0, decimal => decimal
  | places + 1, decimal =>
      if decimal.digits % 10 = 0 then
        strip places
          { decimal with
            digits := decimal.digits / 10, exponent := decimal.exponent + 1 }
      else
        decimal

/-- A decimal written without an exponent. -/
def render (decimal : Decimal) : String :=
  let digits :=
    Nat.toDigits 10 decimal.digits ++ List.replicate decimal.exponent.toNat '0'
  let places := (-decimal.exponent).toNat
  let padded := digits.leftpad (places + 1) '0'
  let whole := padded.take (padded.length - places)
  let fraction := padded.drop (padded.length - places)
  let unsigned := if fraction.isEmpty then whole else whole ++ '.' :: fraction
  String.ofList (if decimal.negative then '-' :: unsigned else unsigned)

end Decimal

namespace Binary64

/-- The least power of ten that is greater than a positive fraction. -/
def decimalSize (fraction : Nat × Nat) : Int :=
  if fraction.2 ≤ fraction.1 then
    decimalLength (fraction.1 / fraction.2)
  else
    let places := decimalLength fraction.2 - decimalLength fraction.1
    let places := if fraction.2 ≤ fraction.1 * Nat.pow 10 places then places
      else places + 1
    1 - (places : Int)

/--
Whether a decimal reads back as a number.  In quarters of the last binary place,
the reals that do so reach two upwards, and two downwards or, below a power of
two, one.  The ends belong to them if the significand is even.
-/
def readsBack (significand : Nat) (exponent : Int) (decimal : Decimal) : Bool :=
  let below :=
    if significand = 0x10000000000000 ∧ -1074 < exponent then 1 else 2
  let quarters :=
    scaled 2 (2 - exponent) (scaled 10 decimal.exponent (decimal.digits, 1))
  let low := (4 * significand - below) * quarters.2
  let high := (4 * significand + 2) * quarters.2
  if significand % 2 = 0 then
    low ≤ quarters.1 && quarters.1 ≤ high
  else
    low < quarters.1 && quarters.1 < high

/--
The decimal of a number of digits that reads back as a number, if there is one:
the nearest.
-/
def digits? (significand : Nat) (exponent : Int) (count : Nat) :
    Option Decimal :=
  let value := scaled 2 exponent (significand, 1)
  let place : Int := decimalSize value - count
  let inPlaces := scaled 10 (-place) value
  let low := inPlaces.1 / inPlaces.2
  let near := roundedQuotient inPlaces.1 inPlaces.2
  let far := if near = low then low + 1 else low
  [near, far].findSome? fun digits =>
    let decimal : Decimal := { digits, exponent := place }
    if readsBack significand exponent decimal then some decimal else none

/-- The exact decimal of a number. -/
def exactDecimal (significand : Nat) (exponent : Int) : Decimal :=
  { digits := significand * Nat.pow 2 exponent.toNat *
      Nat.pow 5 (-exponent).toNat
    exponent := min exponent 0 }

/-- The decimal with the fewest digits that reads back as a positive number. -/
def shortest (significand : Nat) (exponent : Int) : Decimal :=
  let decimal :=
    ((List.range 17).findSome? fun count =>
      digits? significand exponent (count + 1)).getD
      (exactDecimal significand exponent)
  decimal.strip (decimalLength decimal.digits - 1)

/-- A number as text. -/
def toText : Binary64 → String
  | .finite negative 0 _ => if negative then "-0" else "0"
  | .finite negative significand exponent =>
      { shortest significand exponent with negative }.render
  | .infinite negative => if negative then "-Inf" else "+Inf"
  | .notANumber => "NaN"

/-- Whether a number is zero. -/
def isZero : Binary64 → Bool
  | .finite _ significand _ => significand == 0
  | _ => false

/-- The number that is nearest to an integer of up to 64 bits. -/
def ofInt (value : Int) : Binary64 :=
  let decimal : Decimal :=
    { negative := decide (value < 0), digits := value.natAbs, exponent := 0 }
  decimal.toBinary64?.getD (.infinite decimal.negative)

end Binary64

end Asm24.Text
