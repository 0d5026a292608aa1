import Asm24.Proofs.Literal
import Mathlib.Computability.Language

/-!
# Patterns of words

The forms of labels, literals and registers, written down as languages over
characters: texts and ranges of characters are put together by choice, sequence
and repetition.

The tests of these forms look at a word from its ends, without trying ways to
divide it.  Each of them is passed by exactly the words of its pattern.
-/

namespace Asm24.Assembly

open scoped Computability

namespace Pattern

/-! ## Forms of words -/

/-- The pattern of one text. -/
def exactly (text : List Char) : Language Char :=
  {text}

/-- One character of a range. -/
def range (low high : Char) : Language Char :=
  {word | ∃ char, (low ≤ char ∧ char ≤ high) ∧ word = [char]}

/-- A pattern that is repeated at least once. -/
def repeated (pattern : Language Char) : Language Char :=
  pattern * pattern∗

def digit : Language Char :=
  range '0' '9'

def letter : Language Char :=
  range 'A' 'Z' + range 'a' 'z'

/-- A letter, then letters, digits, underscores and hyphens. -/
def labelName : Language Char :=
  letter * (letter + digit + exactly ['_'] + exactly ['-'])∗

/-- A zero, a mark in lower or upper case, and digits. -/
def marked (lower upper : Char) (digits : Language Char) : Language Char :=
  exactly ['0'] * ((exactly [lower] + exactly [upper]) * repeated digits)

/-- The literals of a base; those of the octal base may have the digit eight. -/
def literal : Base → Language Char
  | .binary => marked 'b' 'B' (exactly ['0'] + exactly ['1'])
  | .octal => marked 'c' 'C' (range '0' '8')
  | .decimal => (1 + exactly ['-']) * repeated digit
  | .hexadecimal => marked 'x' 'X' (digit + range 'a' 'f' + range 'A' 'F')

def registerName : Language Char :=
  exactly ['R'] * repeated digit + exactly ['S', 'P'] + exactly ['L', 'R'] +
    exactly ['P', 'C'] +
    exactly ['C', 'P', 'S', 'R']

/-- The name of a register, with a comma or without. -/
def registerOperand : Language Char :=
  registerName * (1 + exactly [','])

/-! ## Classes of characters -/

/-- A pattern of the characters that pass a test. -/
def IsClass (pattern : Language Char) (holds : Char → Bool) : Prop :=
  ∀ word, word ∈ pattern ↔ ∃ char, holds char = true ∧ word = [char]

theorem mem_exactly_iff {word text : List Char} :
    word ∈ exactly text ↔ word = text :=
  Iff.rfl

theorem isClass_range (low high : Char) :
    IsClass (range low high) fun char => low ≤ char && char ≤ high := by
  intro word
  simp only [Bool.and_eq_true, decide_eq_true_eq]
  rfl

theorem isClass_exactly (mark : Char) :
    IsClass (exactly [mark]) (· == mark) := by
  intro word
  simp only [mem_exactly_iff, beq_iff_eq, exists_eq_left]

theorem IsClass.add {first second : Language Char} {holds others : Char → Bool}
    (isFirst : IsClass first holds) (isSecond : IsClass second others) :
    IsClass (first + second) fun char => holds char || others char := by
  intro word
  simp only [Language.mem_add, isFirst word, isSecond word, Bool.or_eq_true,
    or_and_right, exists_or]

theorem isClass_digit : IsClass digit Char.isDigit :=
  isClass_range '0' '9'

theorem isClass_letter : IsClass letter Char.isAlpha := by
  have upper : IsClass (range 'A' 'Z') Char.isUpper := by
    have same : Char.isUpper = fun char => 'A' ≤ char && char ≤ 'Z' :=
      funext fun _ => Bool.decide_and _ _
    rw [same]
    exact isClass_range 'A' 'Z'
  exact upper.add (isClass_range 'a' 'z')

section Class

variable {pattern : Language Char} {holds : Char → Bool}
  (isClass : IsClass pattern holds)

include isClass

theorem IsClass.mem_mul_iff {others : Language Char} {word : List Char} :
    word ∈ pattern * others ↔
      ∃ char rest, holds char = true ∧ rest ∈ others ∧ word = char :: rest := by
  rw [Language.mem_mul]
  constructor
  · rintro ⟨first, isFirst, rest, isRest, rfl⟩
    rcases (isClass first).mp isFirst with ⟨char, held, rfl⟩
    exact ⟨char, rest, held, isRest, rfl⟩
  · rintro ⟨char, rest, held, isRest, rfl⟩
    exact ⟨[char], (isClass [char]).mpr ⟨char, held, rfl⟩, rest, isRest, rfl⟩

theorem IsClass.mem_kstar_iff {word : List Char} :
    word ∈ pattern∗ ↔ ∀ char ∈ word, holds char = true := by
  rw [Language.mem_kstar]
  constructor
  · rintro ⟨pieces, rfl, each⟩ char member
    rcases List.mem_flatten.mp member with ⟨piece, isPiece, inPiece⟩
    rcases (isClass piece).mp (each piece isPiece) with ⟨other, held, rfl⟩
    rwa [List.mem_singleton.mp inPiece]
  · intro held
    refine ⟨word.map ([·]), (List.flatMap_singleton' word).symm, ?_⟩
    intro piece isPiece
    rcases List.mem_map.mp isPiece with ⟨char, member, rfl⟩
    exact (isClass [char]).mpr ⟨char, held char member, rfl⟩

theorem IsClass.mem_repeated_iff {word : List Char} :
    word ∈ repeated pattern ↔ Token.isRun holds word = true := by
  rw [repeated, isClass.mem_mul_iff]
  simp only [isClass.mem_kstar_iff]
  constructor
  · rintro ⟨char, rest, held, others, rfl⟩
    simpa [Token.isRun, held] using others
  · intro run
    cases word with
    | nil => cases run
    | cons char rest =>
        simp only [Token.isRun, List.all_cons, Bool.and_eq_true,
          List.all_eq_true] at run
        exact ⟨char, rest, run.2.1, run.2.2, rfl⟩

end Class

/-! ## Words of the patterns -/

variable {word : List Char}

theorem mem_labelName_iff :
    word ∈ labelName ↔ Token.isLabelName word = true := by
  have others :=
    ((isClass_letter.add isClass_digit).add (isClass_exactly '_')).add
    (isClass_exactly '-')
  rw [labelName, isClass_letter.mem_mul_iff]
  simp only [others.mem_kstar_iff]
  constructor
  · rintro ⟨char, rest, alpha, isRest, rfl⟩
    rw [Token.isLabelName, alpha, Bool.true_and, List.all_eq_true]
    exact isRest
  · intro isName
    cases word with
    | nil => cases isName
    | cons char rest =>
        rw [Token.isLabelName, Bool.and_eq_true, List.all_eq_true] at isName
        exact ⟨char, rest, isName.1, isName.2, rfl⟩

theorem mem_marked_iff {base : Base} {lower upper : Char}
    {digits : Language Char} (letters : base.marks = [lower, upper])
    (isDigits : IsClass digits base.admits) :
    word ∈ marked lower upper digits ↔ HasForm base word := by
  have marks := (isClass_exactly lower).add (isClass_exactly upper)
  rw [marked, (isClass_exactly '0').mem_mul_iff]
  simp only [marks.mem_mul_iff, isDigits.mem_repeated_iff]
  constructor
  · rintro ⟨zero, _, isZero, ⟨mark, run, isMark, isRun, rfl⟩, rfl⟩
    rw [eq_of_beq isZero]
    exact .marked (by simpa [letters] using isMark) isRun
  · intro form
    cases form with
    | marked isMark run =>
        exact ⟨'0', _, rfl, ⟨_, _, by simpa [letters] using isMark, run, rfl⟩,
          rfl⟩
    | decimal => cases letters
    | negative => cases letters

theorem mem_literal_iff {base : Base} :
    word ∈ literal base ↔ HasForm base word := by
  cases base with
  | binary =>
      exact mem_marked_iff rfl ((isClass_exactly '0').add (isClass_exactly '1'))
  | octal => exact mem_marked_iff rfl (isClass_range '0' '8')
  | hexadecimal =>
      exact mem_marked_iff rfl
        ((isClass_digit.add (isClass_range 'a' 'f')).add
          (isClass_range 'A' 'F'))
  | decimal =>
      rw [literal, add_mul, one_mul, Language.mem_add,
        (isClass_exactly '-').mem_mul_iff]
      simp only [isClass_digit.mem_repeated_iff]
      constructor
      · rintro (run | ⟨sign, digits, isSign, run, rfl⟩)
        · exact .decimal run
        · rw [eq_of_beq isSign]
          exact .negative run
      · intro form
        cases form with
        | marked isMark => cases isMark
        | decimal run => exact Or.inl run
        | negative run => exact Or.inr ⟨'-', _, rfl, run, rfl⟩

theorem mem_registerName_iff :
    word ∈ registerName ↔ Token.isRegisterName word = true := by
  have numbered : word ∈ exactly ['R'] * repeated digit ↔
      ∃ digits, Token.isRun Char.isDigit digits = true ∧
        word = 'R' :: digits := by
    simp only [(isClass_exactly 'R').mem_mul_iff,
      isClass_digit.mem_repeated_iff, beq_iff_eq]
    constructor
    · rintro ⟨_, digits, rfl, run, rfl⟩
      exact ⟨digits, run, rfl⟩
    · rintro ⟨digits, run, rfl⟩
      exact ⟨'R', digits, rfl, run, rfl⟩
  simp only [registerName, Language.mem_add, numbered, mem_exactly_iff]
  unfold Token.isRegisterName
  split
  case h_1 digits => simp
  case h_2 other =>
    have unnumbered : ¬ ∃ digits,
        Token.isRun Char.isDigit digits = true ∧ word = 'R' :: digits := by
      rintro ⟨digits, -, numbered⟩
      exact other digits numbered
    simp [unnumbered]

theorem comma_notMem_of_isRegisterName
    (isName : Token.isRegisterName word = true) :
    ',' ∉ word := by
  unfold Token.isRegisterName at isName
  split at isName
  case h_1 digits =>
    simp only [Token.isRun, Bool.and_eq_true, List.all_eq_true] at isName
    rw [List.mem_cons, not_or]
    exact ⟨by decide, fun member => absurd (isName.2 ',' member) (by decide)⟩
  case h_2 =>
    simp only [Bool.or_eq_true, beq_iff_eq] at isName
    rcases isName with ((rfl | rfl) | rfl) | rfl <;> simp

theorem mem_registerOperand_iff :
    word ∈ registerOperand ↔ Token.isRegisterOperand word = true := by
  rw [registerOperand, mul_add, mul_one, Language.mem_add, Language.mem_mul,
    Token.isRegisterOperand]
  simp only [mem_registerName_iff, mem_exactly_iff]
  constructor
  · rintro (isName | ⟨name, isName, _, rfl, rfl⟩)
    · rwa [Token.withoutComma, if_neg]
      exact fun comma =>
        comma_notMem_of_isRegisterName isName (List.mem_of_getLast? comma)
    · simpa [Token.withoutComma] using isName
  · intro isName
    unfold Token.withoutComma at isName
    split at isName
    case isTrue comma =>
      exact Or.inr ⟨_, isName, _, rfl, List.dropLast_append_getLast? ',' comma⟩
    case isFalse => exact Or.inl isName

end Pattern

end Asm24.Assembly
