import Asm24.Assembly.Literal
import Asm24.Proofs.Numeral
import Mathlib.Data.Nat.Digits.Defs
import Mathlib.Tactic.Ring

/-!
# What numeric literals spell

A literal spells a number in one of four bases: the digits of the base, behind a
mark unless the base is ten, and behind a minus sign or none if it is.  `Spells`
states this without the reader, by the value that a string of digits has in a
base.

Reading goes through a test for each base and through digits that are added up
in 64 bits.  The first sum that does not fit ends the reading.  Sums only grow,
so for digits of the base this is so exactly if the whole number does not fit.
`read_of_spells` says that a literal which spells a number is read as this
number or overflows, and `read_eq_ok_iff` that every number in signed 64-bit
range is read, from the literals that spell it and from no other word.
-/

namespace Asm24.Text

open Asm24.Proofs

/-! ## Digits -/

/-- A digit of a base, in lower or in upper case, and its value. -/
def IsDigit (base : Nat) (char : Char) (figure : Nat) : Prop :=
  figure < base ∧ (char = Nat.digitChar figure ∨ char = hexDigit figure)

/-- A string of digits, the most significant first, and its value. -/
def IsNumeral (base : Nat) (digits : List Char) (value : Nat) : Prop :=
  digits ≠ [] ∧ ∃ figures, List.Forall₂ (IsDigit base) digits figures ∧
    Nat.ofDigits base figures.reverse = value

theorem digitValue?_eq_some_iff {char : Char} {figure : Nat} :
    digitValue? char = some figure ↔ IsDigit 16 char figure := by
  constructor
  · intro found
    have ascii : char.toNat < 128 := by
      unfold digitValue? at found
      split at found
      case isTrue range =>
        have high : char.toNat ≤ 57 := UInt32.le_iff_toNat_le.mp range.2
        omega
      case isFalse =>
        split at found
        case isTrue range =>
          have high : char.toNat ≤ 102 := UInt32.le_iff_toNat_le.mp range.2
          omega
        case isFalse =>
          split at found
          case isTrue range =>
            have high : char.toNat ≤ 70 := UInt32.le_iff_toNat_le.mp range.2
            omega
          case isFalse => cases found
    have every : ∀ code < 128, ∀ figure ∈ digitValue? (Char.ofNat code),
        figure < 16 ∧
        (Char.ofNat code = Nat.digitChar figure ∨
          Char.ofNat code = hexDigit figure) := by
      decide
    have digit := every char.toNat ascii figure
    rw [Char.ofNat_toNat] at digit
    exact digit found
  · rintro ⟨small, either⟩
    have every : ∀ figure < 16,
        digitValue? (Nat.digitChar figure) = some figure := by decide
    rcases either with rfl | rfl
    · exact every figure small
    · exact digitValue?_hexDigit small

/-- A number is written by digits that have its value. -/
theorem exists_figures_toDigits (value : Nat) :
    ∃ figures, List.Forall₂ (IsDigit 16)
      ((Nat.toDigits 16 value).map Char.toUpper) figures ∧
      Nat.ofDigits 16 figures.reverse = value := by
  induction value using Nat.strongRecOn with
  | ind value ih =>
      by_cases small : value < 16
      · rw [Nat.toDigits_of_lt_base small]
        exact ⟨[value], .cons ⟨small, Or.inr rfl⟩ .nil, Nat.ofDigits_singleton⟩
      · rcases ih (value / 16) (by omega) with ⟨figures, digits, same⟩
        have last : IsDigit 16 (hexDigit (value % 16)) (value % 16) :=
          ⟨Nat.mod_lt _ (by omega), Or.inr rfl⟩
        rw [Nat.toDigits_of_base_le (by omega) (by omega), List.map_append]
        refine ⟨figures ++ [value % 16],
          List.rel_append digits (.cons last .nil), ?_⟩
        rw [List.reverse_append, List.reverse_singleton, List.singleton_append,
          Nat.ofDigits_cons, same, Nat.mod_add_div]

/-- A zero on the left does not change the value. -/
theorem IsNumeral.zero_cons {base value : Nat} {digits : List Char}
    (positive : 0 < base) (numeral : IsNumeral base digits value) :
    IsNumeral base ('0' :: digits) value := by
  rcases numeral with ⟨-, figures, all, same⟩
  refine ⟨by simp, 0 :: figures, .cons ⟨positive, Or.inl rfl⟩ all, ?_⟩
  rw [List.reverse_cons, Nat.ofDigits_append_zero, same]

/--
A number in hexadecimal spells the number, whatever zeros fill it up on the
left.
-/
theorem isNumeral_hexUpper (width value : Nat) :
    IsNumeral 16 (hexUpper width value).toList value := by
  rw [hexUpper, String.toList_ofList, List.leftpad]
  generalize width - _ = count
  induction count with
  | zero => exact ⟨by simp [Nat.toDigits_ne_nil], exists_figures_toDigits value⟩
  | succ count ih =>
      rw [List.replicate_succ, List.cons_append]
      exact ih.zero_cons (by decide)

theorem IsDigit.mono {base larger : Nat} {char : Char} {figure : Nat}
    (digit : IsDigit base char figure) (bound : base ≤ larger) :
    IsDigit larger char figure :=
  ⟨Nat.lt_of_lt_of_le digit.1 bound, digit.2⟩

/-! ## Reading digits -/

/-- The first digit weighs as much as the digits behind it leave room for. -/
theorem positional_cons {base start figure : Nat} {figures : List Nat}
    {char : Char} {rest : List Char} (length : rest.length = figures.length) :
    start * base ^ (char :: rest).length +
      Nat.ofDigits base (figure :: figures).reverse =
      (start * base + figure) * base ^ rest.length +
        Nat.ofDigits base figures.reverse := by
  rw [List.reverse_cons, Nat.ofDigits_append, Nat.ofDigits_singleton,
    List.length_reverse, List.length_cons, ← length]
  ring

section Base

variable {base : Nat} (positive : 0 < base) (small : base ≤ 16)

include positive small

/--
Digits are added to what is read already, as long as the sum fits in 64 bits.
-/
theorem readDigits_eq_ok_iff {start value : Nat} {digits : List Char}
    (fits : start < 2 ^ 64) :
    readDigits base start digits = .ok value ↔
      ∃ figures, List.Forall₂ (IsDigit base) digits figures ∧
        start * base ^ digits.length + Nat.ofDigits base figures.reverse =
          value ∧
        value < 2 ^ 64 := by
  induction digits generalizing start with
  | nil =>
      simp only [readDigits, List.forall₂_nil_left_iff, Except.ok.injEq]
      constructor
      · rintro rfl
        exact ⟨[], rfl, by simp, fits⟩
      · rintro ⟨_, rfl, same, -⟩
        simpa using same
  | cons char rest ih =>
      rw [readDigits]
      constructor
      · intro read
        split at read
        case h_1 => cases read
        case h_2 figure found =>
          split at read
          case isTrue => cases read
          case isFalse proper =>
            split at read
            case isTrue => cases read
            case isFalse room =>
              rcases (ih (by omega)).mp read with ⟨figures, digits, same, bound⟩
              have digit : IsDigit base char figure :=
                ⟨by omega, (digitValue?_eq_some_iff.mp found).2⟩
              exact ⟨figure :: figures, .cons digit digits,
                (positional_cons digits.length_eq).trans same, bound⟩
      · rintro ⟨_, digits, same, bound⟩
        cases digits with
        | @cons _ figure _ figures digit digits =>
            rw [positional_cons digits.length_eq] at same
            have weight : 1 ≤ base ^ rest.length := Nat.pow_pos positive
            have least :
                start * base + figure ≤ (start * base + figure) *
                  base ^ rest.length :=
              Nat.le_mul_of_pos_right _ weight
            have room : ¬ 0x10000000000000000 ≤ start * base + figure := by
              omega
            rw [digitValue?_eq_some_iff.mpr (digit.mono small)]
            simp only [Nat.not_le.mpr digit.1, room, if_false]
            exact (ih (by omega)).mpr ⟨figures, digits, same, bound⟩

omit positive in
/-- Digits overflow if the number that they spell does not fit in 64 bits. -/
theorem readDigits_eq_overflow {start : Nat} {digits : List Char}
    {figures : List Nat} (all : List.Forall₂ (IsDigit base) digits figures)
    (fits : start < 2 ^ 64)
    (wide : 2 ^ 64 ≤ start * base ^ digits.length +
      Nat.ofDigits base figures.reverse) :
    readDigits base start digits = .error .overflow := by
  induction all generalizing start with
  | nil =>
      simp only [List.length_nil, pow_zero, mul_one, List.reverse_nil,
        Nat.ofDigits_nil, add_zero] at wide
      omega
  | @cons char figure rest figures digit digits ih =>
      rw [positional_cons digits.length_eq] at wide
      rw [readDigits, digitValue?_eq_some_iff.mpr (digit.mono small)]
      simp only [Nat.not_le.mpr digit.1, if_false]
      by_cases overflow : 0x10000000000000000 ≤ start * base + figure
      · rw [if_pos overflow]
      · rw [if_neg overflow]
        exact ih (by omega) wide

theorem readNatural_eq_ok_iff {digits : List Char} {value : Nat} :
    readNatural base digits = .ok value ↔
      IsNumeral base digits value ∧ value < 2 ^ 64 := by
  rw [readNatural, IsNumeral]
  by_cases none : digits = []
  · simp [none]
  · simp only [none, List.isEmpty_iff, if_false, ne_eq, not_false_eq_true,
      true_and]
    rw [readDigits_eq_ok_iff positive small (by decide)]
    simp only [Nat.zero_mul, Nat.zero_add]
    constructor
    · rintro ⟨figures, digits, same, bound⟩
      exact ⟨⟨figures, digits, same⟩, bound⟩
    · rintro ⟨⟨figures, digits, same⟩, bound⟩
      exact ⟨figures, digits, same, bound⟩

omit positive small in
theorem signed_eq {negative : Bool} {magnitude : Nat} :
    signed negative magnitude =
      let value : Int := if negative then -magnitude else magnitude
      if -2 ^ 63 ≤ value ∧ value < 2 ^ 63 then
        .ok value
      else
        .error .overflow := by
  unfold signed
  cases negative with
  | true =>
      by_cases outside : 0x8000000000000000 < magnitude
      · simp only [outside, if_true]
        rw [if_neg (by omega)]
      · simp only [outside, if_true, if_false]
        rw [if_pos (by omega)]
  | false =>
      by_cases outside : 0x8000000000000000 ≤ magnitude
      · simp only [outside, if_true, if_false, Bool.false_eq_true]
        rw [if_neg (by omega)]
      · simp only [outside, if_false, Bool.false_eq_true]
        rw [if_pos (by omega)]

/--
A numeral is read as its magnitude; if it overflows, so does the magnitude with
any sign.
-/
theorem readSigned_of_isNumeral {digits : List Char} {magnitude : Nat}
    (numeral : IsNumeral base digits magnitude) (negative : Bool) :
    readSigned base negative digits = signed negative magnitude := by
  by_cases fits : magnitude < 2 ^ 64
  · rw [readSigned, (readNatural_eq_ok_iff positive small).mpr ⟨numeral, fits⟩]
    rfl
  · rcases numeral with ⟨some, figures, all, rfl⟩
    have overflow : readNatural base digits = .error .overflow := by
      rw [readNatural, if_neg (by simpa using some)]
      apply readDigits_eq_overflow small all (by decide)
      omega
    rw [readSigned, overflow, signed_eq]
    dsimp only
    rw [if_neg (by cases negative <;>
      simp only [if_true, if_false, Bool.false_eq_true] <;> omega)]
    rfl

/--
A sign and digits are read as the number that they spell, if it is in signed
64-bit range.
-/
theorem readSigned_eq_ok_iff {negative : Bool} {digits : List Char}
    {value : Int} :
    readSigned base negative digits = .ok value ↔
      ∃ magnitude : Nat, IsNumeral base digits magnitude ∧
        (if negative then -(magnitude : Int) else magnitude) = value ∧
        -2 ^ 63 ≤ value ∧ value < 2 ^ 63 := by
  have signed_iff (magnitude : Nat) :
      signed negative magnitude = .ok value ↔
        (if negative then -(magnitude : Int) else magnitude) = value ∧
          -2 ^ 63 ≤ value ∧ value < 2 ^ 63 := by
    rw [signed_eq]
    dsimp only
    generalize (if negative then -(magnitude : Int) else magnitude) = number
    split
    case isTrue range =>
      rw [Except.ok.injEq]
      constructor
      · rintro rfl
        exact ⟨rfl, range⟩
      · exact And.left
    case isFalse outside =>
      simp only [reduceCtorEq, false_iff]
      rintro ⟨rfl, range⟩
      exact outside range
  constructor
  · intro read
    rcases bind_eq_ok_iff.mp read with ⟨magnitude, natural, range⟩
    have numeral := ((readNatural_eq_ok_iff positive small).mp natural).1
    exact ⟨magnitude, numeral, (signed_iff magnitude).mp range⟩
  · rintro ⟨magnitude, numeral, range⟩
    rw [readSigned_of_isNumeral positive small numeral, signed_iff]
    exact range

end Base

end Asm24.Text

namespace Asm24.Assembly

open Asm24.Text (IsNumeral IsDigit)
open Asm24.Proofs

/-! ## The forms of literals -/

namespace Base

/-- The letters that mark a base. -/
def marks : Base → List Char
  | .binary => ['b', 'B']
  | .octal => ['c', 'C']
  | .decimal => []
  | .hexadecimal => ['x', 'X']

/-- The characters that the form of a literal admits as digits. -/
def admits : Base → Char → Bool
  | .binary => fun char => char == '0' || char == '1'
  | .octal => fun char => '0' ≤ char && char ≤ '8'
  | .decimal => Char.isDigit
  | .hexadecimal => Token.isHexDigit

theorem radix_bounds (base : Base) : 0 < base.radix ∧ base.radix ≤ 16 := by
  cases base <;> decide

/-- The form of a base admits all of its digits. -/
theorem admits_digit (base : Base) :
    ∀ figure < base.radix, base.admits (Nat.digitChar figure) = true ∧
      base.admits (Text.hexDigit figure) = true := by
  cases base <;> decide

theorem eq_of_mem_marks {base other : Base} {mark : Char}
    (isMark : mark ∈ base.marks) (isOther : mark ∈ other.marks) :
    base = other := by
  have every : ∀ letter ∈ base.marks, letter ∈ other.marks → base = other := by
    cases base <;> cases other <;> simp [marks]
  exact every mark isMark isOther

theorem isDigit_of_mem_marks {base : Base} {mark : Char}
    (isMark : mark ∈ base.marks) :
    mark.isDigit = false := by
  have every : ∀ letter ∈ base.marks, letter.isDigit = false := by
    cases base <;> simp [marks]
  exact every mark isMark

end Base

/-- A word in the form of a literal of a base. -/
inductive HasForm : Base → List Char → Prop where
  | marked {base : Base} {mark : Char} {digits : List Char}
      (isMark : mark ∈ base.marks)
      (run : Token.isRun base.admits digits = true) :
      HasForm base ('0' :: mark :: digits)
  | decimal {digits : List Char}
      (run : Token.isRun Char.isDigit digits = true) :
      HasForm .decimal digits
  | negative {digits : List Char}
      (run : Token.isRun Char.isDigit digits = true) :
      HasForm .decimal ('-' :: digits)

theorem isDigit_head_of_isRun {first : Char} {rest : List Char}
    (run : Token.isRun Char.isDigit (first :: rest) = true) :
    first.isDigit = true := by
  simp only [Token.isRun, List.all_cons, Bool.and_eq_true] at run
  exact run.2.1

/--
Three of the forms are tested by one rule: a zero, one of two marks, and digits.
-/
theorem marked_iff {base : Base} {lower upper : Char}
    (letters : base.marks = [lower, upper]) {word : List Char} :
    (match word with
      | '0' :: mark :: digits =>
          (mark == lower || mark == upper) && Token.isRun base.admits digits
      | _ => false) = true ↔ HasForm base word := by
  constructor
  · intro marked
    split at marked
    case h_1 mark digits =>
      rw [Bool.and_eq_true] at marked
      exact .marked (by simpa [letters] using marked.1) marked.2
    case h_2 => cases marked
  · intro form
    cases form with
    | marked isMark run => simpa [letters, run] using isMark
    | decimal => cases letters
    | negative => cases letters

theorem isBinary_iff {word : List Char} :
    Token.isBinary word = true ↔ HasForm .binary word :=
  @marked_iff .binary 'b' 'B' rfl word

theorem isOctal_iff {word : List Char} :
    Token.isOctal word = true ↔ HasForm .octal word :=
  @marked_iff .octal 'c' 'C' rfl word

theorem isHexadecimal_iff {word : List Char} :
    Token.isHexadecimal word = true ↔ HasForm .hexadecimal word :=
  @marked_iff .hexadecimal 'x' 'X' rfl word

theorem isDecimal_iff {word : List Char} : Token.isDecimal word = true ↔
    HasForm .decimal word := by
  constructor
  · intro decimal
    unfold Token.isDecimal at decimal
    split at decimal
    case h_1 => exact .negative decimal
    case h_2 => exact .decimal decimal
  · intro form
    cases form with
    | marked isMark => cases isMark
    | decimal run =>
        unfold Token.isDecimal
        split
        case h_1 => cases isDigit_head_of_isRun run
        case h_2 => exact run
    | negative run => exact run

/--
A word has the form of one base only: a mark is neither a digit nor a mark of
another base.
-/
theorem HasForm.unique {base other : Base} {word : List Char}
    (form : HasForm base word) (otherForm : HasForm other word) :
    base = other := by
  have noDigit {marked : Base} {mark : Char} {digits : List Char}
      (isMark : mark ∈ marked.marks)
      (run : Token.isRun Char.isDigit ('0' :: mark :: digits) = true) :
      False := by
    simp [Token.isRun, Base.isDigit_of_mem_marks isMark] at run
  cases form with
  | marked isMark run =>
      cases otherForm with
      | marked isOther => exact Base.eq_of_mem_marks isMark isOther
      | decimal otherRun => exact (noDigit isMark otherRun).elim
  | decimal run =>
      cases otherForm with
      | marked isOther => exact (noDigit isOther run).elim
      | decimal => rfl
      | negative => rfl
  | negative run =>
      cases otherForm with
      | decimal => rfl
      | negative => rfl

/--
The base of a literal is the one whose form it has, whatever the order of the
tests.
-/
theorem literalBase?_eq_some_iff {word : List Char} {base : Base} :
    Token.literalBase? word = some base ↔ HasForm base word := by
  have sound {found : Base} (isBase : Token.literalBase? word = some found) :
      HasForm found word := by
    unfold Token.literalBase? at isBase
    split at isBase
    case isTrue binary =>
      cases isBase
      exact isBinary_iff.mp binary
    case isFalse =>
      split at isBase
      case isTrue octal =>
        cases isBase
        exact isOctal_iff.mp octal
      case isFalse =>
        split at isBase
        case isTrue decimal =>
          cases isBase
          exact isDecimal_iff.mp decimal
        case isFalse =>
          split at isBase
          case isTrue hexadecimal =>
            cases isBase
            exact isHexadecimal_iff.mp hexadecimal
          case isFalse => cases isBase
  refine ⟨sound, ?_⟩
  intro form
  have exists_base : ∃ found, Token.literalBase? word = some found := by
    unfold Token.literalBase?
    cases base with
    | binary => exact ⟨_, if_pos (isBinary_iff.mpr form)⟩
    | octal =>
        rw [if_pos (isOctal_iff.mpr form)]
        split <;> exact ⟨_, rfl⟩
    | decimal =>
        rw [if_pos (isDecimal_iff.mpr form)]
        repeat' split
        all_goals exact ⟨_, rfl⟩
    | hexadecimal =>
        rw [if_pos (isHexadecimal_iff.mpr form)]
        repeat' split
        all_goals exact ⟨_, rfl⟩
  rcases exists_base with ⟨found, isBase⟩
  rw [isBase, (sound isBase).unique form]

/-! ## The values of literals -/

/-- A literal and the number that it spells. -/
inductive Spells : List Char → Int → Prop where
  | marked {base : Base} {mark : Char} {digits : List Char} {value : Nat}
      (isMark : mark ∈ base.marks)
      (numeral : IsNumeral base.radix digits value) :
      Spells ('0' :: mark :: digits) value
  | decimal {digits : List Char} {value : Nat}
      (numeral : IsNumeral 10 digits value) :
      Spells digits value
  | negative {digits : List Char} {value : Nat}
      (numeral : IsNumeral 10 digits value) :
      Spells ('-' :: digits) (-value)

/-- The form of a base admits every numeral of the base. -/
theorem isRun_of_isNumeral {base : Base} {digits : List Char} {value : Nat}
    (numeral : IsNumeral base.radix digits value) :
    Token.isRun base.admits digits = true := by
  rcases numeral with ⟨some, figures, all, -⟩
  have each : ∀ char ∈ digits, base.admits char = true := by
    intro char mem
    rcases exists_related all char mem with ⟨figure, small, rfl | rfl⟩
    · exact (base.admits_digit figure small).1
    · exact (base.admits_digit figure small).2
  simpa [Token.isRun, some] using each

theorem readIn_marked {base : Base} {mark : Char} {digits : List Char}
    (isMark : mark ∈ base.marks) :
    Literal.readIn base ('0' :: mark :: digits) =
      Text.readSigned base.radix false digits := by
  cases base with
  | decimal => cases isMark
  | binary => rfl
  | octal => rfl
  | hexadecimal => rfl

theorem readIn_decimal {digits : List Char}
    (run : Token.isRun Char.isDigit digits = true) :
    Literal.readIn .decimal digits = Text.readSigned 10 false digits := by
  unfold Literal.readIn
  split
  case h_1 => cases isDigit_head_of_isRun run
  case h_2 => rfl
  case h_3 other _ => exact (other rfl).elim

theorem read_of_form {base : Base} {word : List Char}
    (form : HasForm base word) :
    Literal.read word = Literal.readIn base word := by
  rw [Literal.read, literalBase?_eq_some_iff.mpr form]

/-- A literal that spells a number is read as this number, or overflows. -/
theorem read_of_spells {word : List Char} {value : Int}
    (spells : Spells word value) :
    Literal.read word =
      if -2 ^ 63 ≤ value ∧ value < 2 ^ 63 then
        .ok value
      else
        .error .overflow := by
  cases spells with
  | @marked base _ _ _ isMark numeral =>
      rw [read_of_form (.marked isMark (isRun_of_isNumeral numeral)),
        readIn_marked isMark, Text.readSigned_of_isNumeral base.radix_bounds.1
          base.radix_bounds.2 numeral,
        Text.signed_eq]
      rfl
  | decimal numeral =>
      have run := @isRun_of_isNumeral .decimal _ _ numeral
      rw [read_of_form (.decimal run), readIn_decimal run,
        Text.readSigned_of_isNumeral (by decide) (by decide) numeral,
        Text.signed_eq]
      rfl
  | negative numeral =>
      rw [read_of_form (.negative (@isRun_of_isNumeral .decimal _ _ numeral)),
        Literal.readIn, Text.readSigned_of_isNumeral (by decide)
          (by decide) numeral, Text.signed_eq]
      rfl

/--
A literal is read as the number that it spells, if the number is in signed
64-bit range.
-/
theorem read_eq_ok_iff {word : List Char} {value : Int} :
    Literal.read word = .ok value ↔
      Spells word value ∧ -2 ^ 63 ≤ value ∧ value < 2 ^ 63 := by
  constructor
  · intro read
    cases isBase : Token.literalBase? word with
    | none =>
        rw [Literal.read, isBase] at read
        cases read
    | some base =>
        have form := literalBase?_eq_some_iff.mp isBase
        rw [read_of_form form] at read
        cases form with
        | marked isMark =>
            rw [readIn_marked isMark,
              Text.readSigned_eq_ok_iff base.radix_bounds.1
                base.radix_bounds.2] at read
            rcases read with ⟨magnitude, numeral, rfl, range⟩
            exact ⟨.marked isMark numeral, range⟩
        | decimal run =>
            rw [readIn_decimal run, Text.readSigned_eq_ok_iff (by decide)
              (by decide)] at read
            rcases read with ⟨magnitude, numeral, rfl, range⟩
            exact ⟨.decimal numeral, range⟩
        | negative run =>
            rw [Literal.readIn, Text.readSigned_eq_ok_iff (by decide)
              (by decide)] at read
            rcases read with ⟨magnitude, numeral, rfl, range⟩
            exact ⟨.negative numeral, range⟩
  · rintro ⟨spells, range⟩
    rw [read_of_spells spells, if_pos range]

theorem number_eq_ok_iff {text : String} {value : Int} :
    Literal.number text = .ok value ↔ Literal.read text.toList = .ok value := by
  unfold Literal.number
  split
  all_goals
    rename_i read
    simp [read]

end Asm24.Assembly
