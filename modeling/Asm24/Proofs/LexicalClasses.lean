import Asm24.Proofs.Grammar
import Asm24.Proofs.Inert
import Asm24.Proofs.Patterns
import Asm24.Proofs.Renaming

/-!
# Lexical classes

Lines and words are read by the first test that they pass, so the order of the
tests could matter.  It does not: a line is at most one of a label, a comment
and a blank line, and none of them if it is a header; a literal has the form of
one base at most; and a word is at most one of a register, a label in the place
of a number and a number.
-/

namespace Asm24.Assembly

open Asm24.Machine

/-! ## Tests that exclude each other -/

/-- Of tests of which each excludes the later ones, at most one is passed. -/
theorem count_true_le_one {tests : List Bool}
    (apart : tests.Pairwise fun first second => first = true → second = false) :
    tests.count true ≤ 1 := by
  induction apart with
  | nil => simp
  | @cons first rest others _ ih =>
      cases first with
      | false => simpa using ih
      | true =>
          have none : rest.count true = 0 := by
            rw [List.count_eq_zero]
            intro passed
            simpa using others true passed rfl
          simp [none]

theorem count_three_le_one {first second third : Bool}
    (one : first = true → second = false) (two : first = true → third = false)
    (three : second = true → third = false) :
    [first, second, third].count true ≤ 1 := by
  apply count_true_le_one
  simp only [List.pairwise_cons, List.forall_mem_cons, List.not_mem_nil,
    false_imp_iff, implies_true, List.Pairwise.nil, and_true]
  exact ⟨⟨one, two⟩, three⟩

/-! ## Forms of literals -/

namespace Base

/-- Whether a word has the form of a base. -/
def hasForm : Base → List Char → Bool
  | .binary => Token.isBinary
  | .octal => Token.isOctal
  | .decimal => Token.isDecimal
  | .hexadecimal => Token.isHexadecimal

variable {word : List Char}

theorem hasForm_iff {base : Base} :
    base.hasForm word = true ↔ HasForm base word := by
  cases base with
  | binary => exact isBinary_iff
  | octal => exact isOctal_iff
  | decimal => exact isDecimal_iff
  | hexadecimal => exact isHexadecimal_iff

theorem hasForm_eq_false {base other : Base} (different : base ≠ other)
    (form : base.hasForm word = true) : other.hasForm word = false := by
  rw [Bool.eq_false_iff]
  intro otherForm
  exact different ((hasForm_iff.mp form).unique (hasForm_iff.mp otherForm))

/-- In whatever order the forms are tested, the base of a literal is found. -/
theorem find?_hasForm {order : List Base} (complete : ∀ base, base ∈ order) :
    order.find? (·.hasForm word) = Token.literalBase? word := by
  cases found : Token.literalBase? word with
  | none =>
      rw [List.find?_eq_none]
      intro base _ form
      rw [literalBase?_eq_some_iff.mpr (hasForm_iff.mp form)] at found
      cases found
  | some base =>
      have form := literalBase?_eq_some_iff.mp found
      have some : (order.find? (·.hasForm word)).isSome = true := by
        rw [List.find?_isSome]
        exact ⟨base, complete base, hasForm_iff.mpr form⟩
      rcases Option.isSome_iff_exists.mp some with ⟨other, first⟩
      have passed := List.find?_some first
      rw [first, form.unique (hasForm_iff.mp passed)]

end Base

theorem literal_forms_apart (word : List Char) :
    [Token.isBinary word, Token.isOctal word, Token.isDecimal word,
      Token.isHexadecimal word].count true ≤ 1 := by
  have different :
      [Base.binary, .octal, .decimal, .hexadecimal].Pairwise (· ≠ ·) := by
        decide
  have apart :
      ([Base.binary, .octal, .decimal, .hexadecimal].map
        (·.hasForm word)).Pairwise
      fun first second => first = true → second = false :=
    List.pairwise_map.mpr (different.imp Base.hasForm_eq_false)
  exact count_true_le_one apart

/-! ## Lines -/

/-- The tests that a line is put to. -/
def lineTests (text : List Char) : List Bool :=
  [Token.isLabelLine text, Token.isComment text, Token.isBlankLine text]

theorem isBlankLine_of_isComment {text : List Char}
    (comment : Token.isComment text = true) :
    Token.isBlankLine text = false := by
  unfold Token.isComment at comment
  split at comment
  case h_1 => rfl
  case h_2 => rfl
  case h_3 => cases comment

theorem count_lineTests (text : List Char) :
    (lineTests text).count true ≤ 1 := by
  have label (passed : Token.isLabelLine text = true) :
      Token.isComment text = false ∧ Token.isBlankLine text = false := by
    have code :
        ¬ (Token.isBlankLine text = true ∨ Token.isComment text = true) := by
      intro inert
      rw [isLabelLine_of_inert inert] at passed
      cases passed
    simpa [and_comm] using code
  exact count_three_le_one (fun passed => (label passed).1)
    (fun passed => (label passed).2) isBlankLine_of_isComment

namespace Line

variable {line : Line}

theorem isLabelLine_iff :
    Token.isLabelLine line.text.toList = true ↔
      ∃ name, line.label? = some name := by
  unfold label?
  split
  case isTrue label => simp [label]
  case isFalse label => simp [label]

theorem content_eq_label_iff {name : String} :
    line.content = .label name ↔ line.label? = some name := by
  rcases line.content_cases with
    ⟨_, content, label, -⟩ | ⟨content, label, -⟩ | ⟨content, label, -⟩
  all_goals simp [content, label]

/-- A header is neither a label nor a comment nor blank. -/
theorem count_of_isHeader (header : line.isHeader = true) :
    (lineTests line.text.toList).count true = 0 := by
  have noLabel : ¬ Token.isLabelLine line.text.toList = true := by
    rw [isLabelLine_iff]
    rintro ⟨name, label⟩
    rw [isHeader_eq_false_of_label? label] at header
    cases header
  have notInert : ¬ line.isInert = true := by
    intro inert
    rw [isHeader_of_isInert inert] at header
    cases header
  rw [isInert_iff, not_or] at notInert
  simp [lineTests, noLabel, notInert.1, notInert.2]

end Line

/-! ## Operands -/

section Operand

variable {word : List Char}

theorem isNumericImmediate_of_isLabelImmediate
    (label : Token.isLabelImmediate word = true) :
    Token.isNumericImmediate word = false := by
  unfold Token.isNumericImmediate
  split
  case h_1 => cases label
  case h_2 => rfl

theorem isLabelImmediate_of_isRegisterOperand
    (register : Token.isRegisterOperand word = true) :
    Token.isLabelImmediate word = false := by
  rw [Token.isLabelImmediate, register, Bool.not_true, Bool.and_false]

theorem operand_classes_apart :
    [Token.isRegisterOperand word, Token.isLabelImmediate word,
      Token.isNumericImmediate word].count true ≤ 1 :=
  count_three_le_one isLabelImmediate_of_isRegisterOperand
    isNumericImmediate_of_isRegisterOperand
    isNumericImmediate_of_isLabelImmediate

/--
Numbers need not be kept apart from registers, since no register has a number
sign.
-/
theorem isImmediateOperand_eq :
    Token.isImmediateOperand word = Token.isImmediate word := by
  rw [Token.isImmediateOperand, Token.isImmediate]
  cases register : Token.isRegisterOperand word with
  | false => simp
  | true => simp [isNumericImmediate_of_isRegisterOperand register]

end Operand

theorem isRegisterOperand_name (mnemonic : Mnemonic) :
    Token.isRegisterOperand mnemonic.name.toList = false := by
  cases mnemonic <;> decide

/--
The classes of a text that is read as a line or as a word.  Those of lines
exclude each other, and so do the forms of literals and the classes of operands;
labels, literals and registers are the words of their patterns.
-/
structure ClassesApart (text : String) : Prop where
  line : (lineTests text.toList).count true ≤ 1
  header : ∀ number, Line.isHeader ⟨number, text⟩ = true →
    (lineTests text.toList).count true = 0
  isLabel : Token.isLabelLine text.toList = true ↔
    ∃ name : String, name.toList ∈ Pattern.labelName ∧ text = name ++ ":"
  /-- The label that a line declares is the line without its colon. -/
  label : ∀ number name, Line.content ⟨number, text⟩ = .label name ↔
    name.toList ∈ Pattern.labelName ∧ text = name ++ ":"
  literal :
    [Token.isBinary text.toList, Token.isOctal text.toList,
      Token.isDecimal text.toList,
    Token.isHexadecimal text.toList].count true ≤ 1
  form : ∀ base : Base, base.hasForm text.toList = true ↔
    text.toList ∈ Pattern.literal base
  /-- The forms may be tested in any order. -/
  order : ∀ order : List Base, (∀ base, base ∈ order) →
    order.find? (·.hasForm text.toList) = Token.literalBase? text.toList
  operand :
    [Token.isRegisterOperand text.toList, Token.isLabelImmediate text.toList,
    Token.isNumericImmediate text.toList].count true ≤ 1
  register : Token.isRegisterOperand text.toList = true ↔
    text.toList ∈ Pattern.registerOperand
  immediate : Token.isImmediateOperand text.toList = true ↔
    Token.isLabelImmediate text.toList = true ∨
      Token.isNumericImmediate text.toList = true
  mnemonic : ∀ mnemonic : Mnemonic, text = mnemonic.name →
    Token.isRegisterOperand text.toList = false

theorem label?_eq_some_iff_pattern {number : Int} {text name : String} :
    Line.label? ⟨number, text⟩ = some name ↔
      name.toList ∈ Pattern.labelName ∧ text = name ++ ":" := by
  rw [Line.label?_eq_some_iff, Pattern.mem_labelName_iff]

/--
No text is of two classes of lines, two forms of literals or two classes of
operands.
-/
theorem lexical_classes_apart (text : String) : ClassesApart text where
  line := count_lineTests text.toList
  header number := @Line.count_of_isHeader ⟨number, text⟩
  isLabel := by
    rw [@Line.isLabelLine_iff ⟨0, text⟩]
    simp only [label?_eq_some_iff_pattern]
  label number name := by
    rw [Line.content_eq_label_iff, label?_eq_some_iff_pattern]
  literal := literal_forms_apart text.toList
  form base := by
    rw [Base.hasForm_iff, Pattern.mem_literal_iff]
  order _ complete := Base.find?_hasForm complete
  operand := operand_classes_apart
  register := Pattern.mem_registerOperand_iff.symm
  immediate := by
    rw [isImmediateOperand_eq, Token.isImmediate, Bool.or_eq_true]
  mnemonic mnemonic := by
    rintro rfl
    exact isRegisterOperand_name mnemonic

/--
A header is of no class, and the digits of a binary literal do not make it
hexadecimal.
-/
theorem classes_of_header_and_literal :
    Line.isHeader ⟨1, ".SECTION READ-ONLY"⟩ = true ∧
      (lineTests ".SECTION READ-ONLY".toList).count true = 0 ∧
      [Base.hexadecimal, .decimal, .octal, .binary].find?
        (·.hasForm "0B1".toList) = Token.literalBase? "0B1".toList := by
  have header : Line.isHeader ⟨1, ".SECTION READ-ONLY"⟩ = true := by decide
  refine ⟨header, (lexical_classes_apart ".SECTION READ-ONLY").header 1 header,
    ?_⟩
  refine (lexical_classes_apart "0B1").order _ ?_
  intro base
  cases base <;> decide

end Asm24.Assembly
