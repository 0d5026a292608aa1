import Asm24.Assembly.Program
import Asm24.Proofs.Literal

/-!
# The grammar of instruction lines

An instruction line is an operator and operands.  The operator is the name of an
operation and letters of flags that the operation takes, none of them twice.
The operands are registers, as many as the operation has in the register shape;
or registers and a number, as many as it has in the immediate shape.  `Writes`
states this by the words of a line alone, together with the instruction that
they write.

The reader works in another order.  It takes the shape from the last word before
it knows the operation, fills the slots that the words call for, and counts the
slots in the end.  `readStatement_iff_writes` says that it accepts exactly the
lines of the grammar.
-/

namespace Asm24.Assembly

open Asm24.Machine
open Asm24.Proofs

/-! ## The words of a line -/

/-- A word that stands for a label in the place of a number. -/
def IsReference (label : String) : Prop :=
  Token.isLabelImmediate label.toList = true ∧
    Token.isMnemonic label.toList = false

/-- A spelling of a register, with one comma at its end or none. -/
def IsRegisterToken (word : String) (register : Register) : Prop :=
  ∃ name, Register.ofAlias? name = some register ∧
    (word = name ∨ word = name ++ ",")

/-- A label, or a number sign and a literal for a number in range. -/
inductive IsNumberToken : String → Immediate → Prop where
  | label {label : String} (reference : IsReference label) :
      IsNumberToken label (.ofLabel label)
  | literal {literal : List Char} {value : Int} (spells : Spells literal value)
      (low : -2048 ≤ value) (high : value ≤ 4095) :
      IsNumberToken (String.ofList ('#' :: literal)) (.ofValue value)

/--
The name of an operation and the letters of flags that it takes, none of them
twice.
-/
def IsOperator (operator : String) (mnemonic : Mnemonic) (flags : FlagSet) :
    Prop :=
  ∃ suffix : List Flag,
    operator.toList = mnemonic.name.toList ++ suffix.map Flag.letter ∧
      suffix.Nodup ∧ (∀ flag ∈ suffix, mnemonic.supports flag = true) ∧
        ∀ flag, flags.has flag = true ↔ flag ∈ suffix

/-- An operation takes each flag of a set. -/
def Supports (mnemonic : Mnemonic) (flags : FlagSet) : Prop :=
  ∀ flag, flags.has flag = true → mnemonic.supports flag = true

theorem IsOperator.supports {operator : String} {mnemonic : Mnemonic}
    {flags : FlagSet} (isOperator : IsOperator operator mnemonic flags) :
    Supports mnemonic flags := by
  rcases isOperator with ⟨suffix, -, -, takes, members⟩
  intro flag member
  exact takes flag ((members flag).mp member)

/-! ## The two forms -/

/-- The instruction of register shape whose leading slots are filled. -/
def ofRegisters (mnemonic : Mnemonic) (flags : FlagSet)
    (registers : List Register) : Instruction where
  opcode := mnemonic.opcode
  status := flags.status
  negate := flags.negate
  destination := registers[0]?
  first := registers[1]?
  second := registers[2]?

/--
The instruction of immediate shape with a number and perhaps a destination.
-/
def ofNumber (mnemonic : Mnemonic) (flags : FlagSet)
    (destination : Option Register) (immediate : Immediate) : Instruction where
  opcode := mnemonic.opcode
  shape := .immediate
  status := flags.status
  negate := flags.negate
  destination
  immediate

/-- The words of an instruction line and the instruction that they write. -/
inductive Writes : List String → Instruction → Prop where
  | registers {operator : String} {operands : List String} {mnemonic : Mnemonic}
      {flags : FlagSet} {registers : List Register}
      (isOperator : IsOperator operator mnemonic flags)
      (count : operands.length = mnemonic.operands.register)
      (all : List.Forall₂ IsRegisterToken operands registers) :
      Writes (operator :: operands) (ofRegisters mnemonic flags registers)
  | number {operator last : String} {front : List String} {mnemonic : Mnemonic}
      {flags : FlagSet} {registers : List Register} {immediate : Immediate}
      (isOperator : IsOperator operator mnemonic flags)
      (count : front.length + 1 = mnemonic.operands.immediate)
      (all : List.Forall₂ IsRegisterToken front registers)
      (isNumber : IsNumberToken last immediate) :
      Writes (operator :: (front ++ [last]))
        (ofNumber mnemonic flags registers[0]? immediate)

theorem register_operands_le (mnemonic : Mnemonic) :
    mnemonic.operands.register ≤ 3 := by
  cases mnemonic <;> decide

theorem number_operands_le (mnemonic : Mnemonic) :
    mnemonic.operands.immediate ≤ 2 := by
  cases mnemonic <;> decide

theorem length_le_one {mnemonic : Mnemonic} {front : List String}
    (count : front.length + 1 = mnemonic.operands.immediate) :
    front.length ≤ 1 := by
  have bound := number_operands_le mnemonic
  omega

theorem mnemonic?_ofRegisters (mnemonic : Mnemonic) (flags : FlagSet)
    (registers : List Register) :
    (ofRegisters mnemonic flags registers).mnemonic? = some mnemonic :=
  Mnemonic.ofOpcode?_opcode mnemonic

theorem mnemonic?_ofNumber (mnemonic : Mnemonic) (flags : FlagSet)
    (destination : Option Register) (immediate : Immediate) :
    (ofNumber mnemonic flags destination immediate).mnemonic? = some mnemonic :=
  Mnemonic.ofOpcode?_opcode mnemonic

theorem operandCount_ofRegisters {mnemonic : Mnemonic} {flags : FlagSet}
    {registers : List Register} (short : registers.length ≤ 3) :
    (ofRegisters mnemonic flags registers).operandCount = registers.length := by
  match registers with
  | [] => rfl
  | [_] => rfl
  | [_, _] => rfl
  | [_, _, _] => rfl
  | _ :: _ :: _ :: _ :: _ =>
      simp only [List.length_cons] at short
      omega

theorem operandCount_ofNumber {mnemonic : Mnemonic} {flags : FlagSet}
    {destination : Option Register} {immediate : Immediate}
    (present : immediate.present = true) :
    (ofNumber mnemonic flags destination immediate).operandCount =
      destination.isSome.toNat + 1 := by
  simp [Instruction.operandCount, ofNumber, present]

theorem IsNumberToken.present {word : String} {immediate : Immediate}
    (isNumber : IsNumberToken word immediate) : immediate.present = true := by
  cases isNumber <;> rfl

/-! ## Operators -/

/-- The name of an operation has three capital letters. -/
theorem name_eq (mnemonic : Mnemonic) :
    ∃ first second third, mnemonic.name.toList = [first, second, third] ∧
      first.isUpper = true ∧ second.isUpper = true ∧ third.isUpper = true := by
  cases mnemonic <;> exact ⟨_, _, _, rfl, by decide, by decide, by decide⟩

theorem ofName?_eq_some_iff {name : String} {mnemonic : Mnemonic} :
    Mnemonic.ofName? name = some mnemonic ↔ name = mnemonic.name := by
  constructor
  · intro found
    have same := List.find?_some found
    exact (beq_iff_eq.mp same).symm
  · rintro rfl
    cases mnemonic <;> rfl

/-- A set of flags is known by its members. -/
theorem flagSet_ext {flags other : FlagSet}
    (same : ∀ flag, flags.has flag = true ↔ other.has flag = true) :
    flags = other := by
  rcases flags with ⟨negate, status⟩
  rcases other with ⟨otherNegate, otherStatus⟩
  rw [FlagSet.mk.injEq]
  exact ⟨Bool.eq_iff_iff.mpr (same .negate), Bool.eq_iff_iff.mpr (same .status)⟩

/--
A letter of a suffix must write a flag that the operation takes and that is not
yet set.
-/
theorem readFlags_cons_eq_ok_iff {operator : String} {mnemonic : Mnemonic}
    {flags final : FlagSet} {char : Char} {rest : List Char} :
    readFlags operator mnemonic flags (char :: rest) = .ok final ↔
      ∃ flag : Flag, char = flag.letter ∧ mnemonic.supports flag = true ∧
        flags.has flag = false ∧
        readFlags operator mnemonic (flags.insert flag) rest = .ok final := by
  simp only [readFlags, ← Flag.ofLetter?_eq_some_iff]
  cases Flag.ofLetter? char with
  | none => simp
  | some flag =>
      cases supported : mnemonic.supports flag with
      | false => simp [supported]
      | true =>
          cases repeated : flags.has flag with
          | false => simp [supported, repeated]
          | true => simp [supported, repeated]

/--
A suffix adds different flags that the operation takes and that were not read
before.
-/
theorem readFlags_eq_ok_iff {operator : String} {mnemonic : Mnemonic}
    {flags final : FlagSet} {letters : List Char} :
    readFlags operator mnemonic flags letters = .ok final ↔
      ∃ suffix : List Flag, letters = suffix.map Flag.letter ∧ suffix.Nodup ∧
        (∀ flag ∈ suffix, mnemonic.supports flag = true ∧
          flags.has flag = false) ∧
          ∀ flag, final.has flag = true ↔
            flags.has flag = true ∨ flag ∈ suffix := by
  induction letters generalizing flags with
  | nil =>
      constructor
      · intro read
        cases read
        exact ⟨[], by simp⟩
      · rintro ⟨suffix, none, -, -, members⟩
        obtain rfl := List.map_eq_nil_iff.mp none.symm
        have same : flags = final := flagSet_ext fun flag => by
          simp [members flag]
        rw [readFlags, same]
  | cons char rest ih =>
      simp only [readFlags_cons_eq_ok_iff, ih]
      constructor
      · rintro ⟨flag, rfl, takes, fresh, suffix, rfl, nodup, each, members⟩
        have new : ∀ other ∈ suffix, mnemonic.supports other = true ∧
            flags.has other = false ∧
            flag ≠ other := by
          simpa using each
        refine ⟨flag :: suffix, rfl, ?_, ?_, ?_⟩
        · exact List.nodup_cons.mpr ⟨fun member => (new flag member).2.2 rfl,
            nodup⟩
        · exact List.forall_mem_cons.mpr
            ⟨⟨takes, fresh⟩, fun other member =>
              ⟨(new other member).1, (new other member).2.1⟩⟩
        · intro other
          simp [members other, or_assoc, @eq_comm _ flag other]
      · rintro ⟨suffix, letters, nodup, each, members⟩
        cases suffix with
        | nil => cases letters
        | cons flag suffix =>
            rcases List.cons.inj letters with ⟨rfl, rfl⟩
            rcases List.nodup_cons.mp nodup with ⟨absent, nodup⟩
            rcases List.forall_mem_cons.mp each with ⟨⟨takes, fresh⟩, each⟩
            refine ⟨flag, rfl, takes, fresh, suffix, rfl, nodup, ?_, ?_⟩
            · intro other member
              have different : flag ≠ other := by
                rintro rfl
                exact absent member
              simpa [different] using each other member
            · intro other
              simp [members other, or_assoc, @eq_comm _ flag other]

theorem readOperator_eq_ok_iff {operator : String} {mnemonic : Mnemonic}
    {flags : FlagSet} :
    readOperator operator = .ok (mnemonic, flags) ↔
      IsOperator operator mnemonic flags := by
  have cut : readOperator operator = .ok (mnemonic, flags) ↔
      String.ofList (operator.toList.take 3) = mnemonic.name ∧
        readFlags operator mnemonic .none (operator.toList.drop 3) =
          .ok flags := by
    rw [← ofName?_eq_some_iff, readOperator]
    cases Mnemonic.ofName? (String.ofList (operator.toList.take 3)) with
    | none => simp
    | some found =>
        simp only [bind_eq_ok_iff, pure_eq_ok_iff, Prod.mk.injEq,
          Option.some.injEq]
        constructor
        · rintro ⟨read, suffix, rfl, rfl⟩
          exact ⟨rfl, suffix⟩
        · rintro ⟨rfl, suffix⟩
          exact ⟨flags, suffix, rfl, rfl⟩
  have noFlag (flag : Flag) : FlagSet.none.has flag = false := by
    cases flag <;> rfl
  rw [cut, readFlags_eq_ok_iff]
  simp only [noFlag, and_true, Bool.false_eq_true, false_or]
  constructor
  · rintro ⟨named, suffix, letters, rest⟩
    refine ⟨suffix, ?_, rest⟩
    rw [← letters, ← named, String.toList_ofList, List.take_append_drop]
  · rintro ⟨suffix, whole, rest⟩
    rcases name_eq mnemonic with ⟨first, second, third, name, -⟩
    rw [whole]
    refine ⟨?_, suffix, ?_, rest⟩
    · rw [name, ← String.ofList_toList (s := mnemonic.name), name]
      rfl
    · rw [name]
      rfl

/-! ## Registers -/

/-- A known spelling is one of the table. -/
theorem mem_aliases_of_ofAlias? {spelling : String} {register : Register}
    (found : Register.ofAlias? spelling = some register) :
    (spelling, register) ∈ Register.aliases := by
  rcases List.lookup_eq_some_iff.mp found with ⟨before, after, split, -⟩
  rw [split]
  simp

/-- A spelling has the form of a register and no comma. -/
theorem alias_form {name : String} {register : Register}
    (found : Register.ofAlias? name = some register) :
    Token.isRegisterName name.toList = true ∧
      Token.withoutComma name.toList = name.toList ∧
      register.index < 16 := by
  have every : ∀ entry ∈ Register.aliases,
      Token.isRegisterName entry.1.toList = true ∧
        Token.withoutComma entry.1.toList = entry.1.toList ∧
        entry.2.index < 16 := by
    decide
  exact every _ (mem_aliases_of_ofAlias? found)

theorem IsRegisterToken.withoutComma {word : String} {register : Register}
    (token : IsRegisterToken word register) :
    Register.ofAlias? (String.ofList (Token.withoutComma word.toList)) =
      some register := by
  rcases token with ⟨name, found, rfl | rfl⟩
  · rw [(alias_form found).2.1, String.ofList_toList]
    exact found
  · have dropped : Token.withoutComma (name ++ ",").toList = name.toList := by
      simp [Token.withoutComma]
    rw [dropped, String.ofList_toList]
    exact found

theorem readRegister_eq_ok_iff {word : String} {register : Register} :
    readRegister word = .ok register ↔ IsRegisterToken word register := by
  constructor
  · intro read
    simp only [readRegister] at read
    split at read
    case isFalse => cases read
    case isTrue =>
      split at read
      case h_2 => cases read
      case h_1 found =>
        cases read
        refine ⟨_, found, ?_⟩
        unfold Token.withoutComma
        split
        case isTrue comma =>
          refine Or.inr (String.toList_inj.mp ?_)
          rw [String.toList_append, String.toList_ofList]
          exact (List.dropLast_append_getLast? ',' comma).symm
        case isFalse => exact Or.inl String.ofList_toList.symm
  · intro token
    have found := token.withoutComma
    rcases alias_form found with ⟨form, noComma, -⟩
    rw [String.toList_ofList] at form noComma
    simp [readRegister, Token.isRegisterOperand, form, noComma, found]

theorem IsRegisterToken.index_lt {word : String} {register : Register}
    (token : IsRegisterToken word register) : register.index < 16 :=
  (alias_form token.withoutComma).2.2

/-- A word in the form of a register has no number sign. -/
theorem isNumericImmediate_of_isRegisterOperand {word : List Char}
    (form : Token.isRegisterOperand word = true) :
    Token.isNumericImmediate word = false := by
  unfold Token.isNumericImmediate
  split
  case h_2 => rfl
  case h_1 rest =>
    have noRegister (letters : List Char) :
        Token.isRegisterName ('#' :: letters) = false := by
      simp [Token.isRegisterName]
    unfold Token.isRegisterOperand Token.withoutComma at form
    split at form
    case isFalse =>
      rw [noRegister] at form
      cases form
    case isTrue comma =>
      cases rest with
      | nil => cases comma
      | cons second rest =>
          rw [List.dropLast_cons_cons, noRegister] at form
          cases form

theorem IsRegisterToken.isRegisterOperand {word : String} {register : Register}
    (token : IsRegisterToken word register) :
    Token.isRegisterOperand word.toList = true := by
  have form := (alias_form token.withoutComma).1
  rwa [String.toList_ofList] at form

/-- A register stands for no number. -/
theorem IsRegisterToken.isImmediate {word : String} {register : Register}
    (token : IsRegisterToken word register) :
    Token.isImmediate word.toList = false := by
  have form := token.isRegisterOperand
  rw [Token.isImmediate, Token.isLabelImmediate, form,
    isNumericImmediate_of_isRegisterOperand form]
  simp

/-! ## Numbers -/

theorem checkRange_eq_ok_iff {quantity : Quantity} {value final : Int} :
    Literal.checkRange quantity value = .ok final ↔
      -2048 ≤ value ∧ value ≤ 4095 ∧ value = final := by
  unfold Literal.checkRange inImmediateRange leastImmediate greatestImmediate
  by_cases range : -2048 ≤ value ∧ value ≤ 4095
  · simp [range]
  · have outside : ¬ (-2048 ≤ value ∧ value ≤ 4095 ∧ value = final) := by
      rintro ⟨low, high, -⟩
      exact range ⟨low, high⟩
    simp [range, outside]

/-- A literal that can be read has a base. -/
theorem isSome_literalBase?_of_read {literal : List Char} {value : Int}
    (read : Literal.read literal = .ok value) :
    (Token.literalBase? literal).isSome = true := by
  unfold Literal.read at read
  split at read
  case h_1 isBase => rw [isBase, Option.isSome_some]
  case h_2 => cases read

/-- No operation has a number sign in its name. -/
theorem isMnemonic_hash (literal : List Char) :
    Token.isMnemonic ('#' :: literal) = false := by
  rw [Token.isMnemonic, Option.isSome_eq_false_iff, Option.isNone_iff_eq_none]
  cases found : Mnemonic.ofName? (String.ofList ('#' :: literal)) with
  | none => rfl
  | some mnemonic =>
      rcases name_eq mnemonic with ⟨first, second, third, name, upper, -⟩
      have same := congrArg String.toList (ofName?_eq_some_iff.mp found)
      rw [String.toList_ofList, name] at same
      have sign : '#' = first := (List.cons.inj same).1
      rw [← sign] at upper
      cases upper

/--
A word is read as the label that it is, or as the number behind its number sign.
-/
theorem readImmediate_iff {word : String} {immediate : Immediate} :
    readImmediate word = .ok immediate ↔
      (Token.isLabelImmediate word.toList = true ∧ .ofLabel word = immediate) ∨
        ∃ literal value, word = String.ofList ('#' :: literal) ∧
          Literal.read literal = .ok value ∧
          -2048 ≤ value ∧ value ≤ 4095 ∧ .ofValue value = immediate := by
  constructor
  · intro read
    unfold readImmediate at read
    split at read
    case isTrue label =>
      cases read
      exact Or.inl ⟨label, rfl⟩
    case isFalse =>
      split at read
      case isFalse => cases read
      case isTrue numeric =>
        rcases bind_eq_ok_iff.mp read with ⟨value, readLiteral, checked⟩
        rcases bind_eq_ok_iff.mp checked with ⟨final, range, same⟩
        cases same
        rcases checkRange_eq_ok_iff.mp range with ⟨low, high, rfl⟩
        unfold Token.isNumericImmediate at numeric
        split at numeric
        case h_2 => cases numeric
        case h_1 literal letters =>
          rw [letters, Token.withoutHash, number_eq_ok_iff,
            String.toList_ofList] at readLiteral
          refine Or.inr ⟨literal, value, ?_, readLiteral, low, high, rfl⟩
          rw [← letters, String.ofList_toList]
  · rintro (⟨label, rfl⟩ | ⟨literal, value, rfl, readLiteral, low, high, rfl⟩)
    · rw [readImmediate, if_pos label]
    · have numeric : Token.isNumericImmediate ('#' :: literal) = true :=
        isSome_literalBase?_of_read readLiteral
      have noLabel : Token.isLabelImmediate ('#' :: literal) = false := by
        simp [Token.isLabelImmediate, Token.isLabelName]
      rw [readImmediate, String.toList_ofList, noLabel, numeric]
      refine bind_eq_ok_iff.mpr ⟨value, ?_, ?_⟩
      · rw [number_eq_ok_iff, String.toList_ofList]
        exact readLiteral
      · exact bind_eq_ok_iff.mpr
          ⟨value, checkRange_eq_ok_iff.mpr ⟨low, high, rfl⟩, rfl⟩

/--
The last words that make a line one of immediate shape and can be read are the
numbers.
-/
theorem readImmediate_eq_ok_iff {word : String} {immediate : Immediate} :
    (Token.isImmediate word.toList = true ∧
      Token.isMnemonic word.toList = false ∧
        readImmediate word = .ok immediate) ↔ IsNumberToken word immediate := by
  rw [readImmediate_iff]
  constructor
  · rintro ⟨-, noMnemonic,
      ⟨label, rfl⟩ | ⟨literal, value, rfl, readLiteral, low, high, rfl⟩⟩
    · exact .label ⟨label, noMnemonic⟩
    · exact .literal (read_eq_ok_iff.mp readLiteral).1 low high
  · intro isNumber
    cases isNumber with
    | label reference =>
        refine ⟨?_, reference.2, Or.inl ⟨reference.1, rfl⟩⟩
        rw [Token.isImmediate, reference.1, Bool.true_or]
    | @literal literal value spells low high =>
        have readLiteral : Literal.read literal = .ok value :=
          read_eq_ok_iff.mpr ⟨spells, by omega, by omega⟩
        have numeric : Token.isNumericImmediate ('#' :: literal) = true :=
          isSome_literalBase?_of_read readLiteral
        rw [String.toList_ofList]
        refine ⟨?_, isMnemonic_hash literal, ?_⟩
        · rw [Token.isImmediate, numeric, Bool.or_true]
        · exact Or.inr ⟨literal, value, rfl, readLiteral, low, high, rfl⟩

/-! ## Operands -/

/--
Up to three words fill the leading slots with the registers that they are read
as.
-/
theorem readRegisterOperands_eq (mnemonic : Mnemonic) (flags : FlagSet)
    (operands : List String) :
    readRegisterOperands mnemonic (ofRegisters mnemonic flags []) operands =
      if operands.length ≤ 3 then
        operands.mapM readRegister >>= fun registers =>
          pure (ofRegisters mnemonic flags registers)
      else .error (.tooManyOperands mnemonic) := by
  match operands with
  | [] => rfl
  | [_] => simp [readRegisterOperands, ofRegisters]
  | [_, _] => simp [readRegisterOperands, ofRegisters]
  | [_, _, _] => simp [readRegisterOperands, ofRegisters]
  | _ :: _ :: _ :: _ :: _ => simp [readRegisterOperands]

/-- At most one word before a number fills the destination. -/
theorem readImmediateOperands_eq (mnemonic : Mnemonic) (flags : FlagSet)
    (front : List String) (last : String) :
    readImmediateOperands mnemonic (ofNumber mnemonic flags none .absent)
        (front ++ [last]) =
      if front.length ≤ 1 then
        front.mapM readRegister >>= fun registers =>
          readImmediate last >>= fun immediate =>
            pure (ofNumber mnemonic flags registers[0]? immediate)
      else .error (.tooManyOperands mnemonic) := by
  match front with
  | [] => rfl
  | [_] => simp [readImmediateOperands, ofNumber]
  | [_, _] => rfl
  | _ :: _ :: _ :: _ => simp [readImmediateOperands]

theorem mapM_readRegister_eq_ok_iff {operands : List String}
    {registers : List Register} :
    operands.mapM readRegister = .ok registers ↔
      List.Forall₂ IsRegisterToken operands registers := by
  rw [mapM_eq_ok_iff, ← List.forall₂_eq_eq_eq, List.forall₂_map_left_iff,
    List.forall₂_map_right_iff]
  simp only [readRegister_eq_ok_iff]

/-- The last word of a line decides its shape. -/
theorem isImmediateLine_concat (front : List String) (last : String) :
    isImmediateLine (front ++ [last]) =
      (Token.isImmediate last.toList && !Token.isMnemonic last.toList) := by
  rw [isImmediateLine, List.getLast?_concat]

/-! ## Reading without counting -/

/--
The lines that can be read, whether or not the operation has as many operands.
-/
inductive Parses : List String → Instruction → Prop where
  | registers {operator : String} {operands : List String} {mnemonic : Mnemonic}
      {flags : FlagSet} {registers : List Register}
      (isOperator : IsOperator operator mnemonic flags)
      (shape : isImmediateLine (operator :: operands) = false)
      (short : operands.length ≤ 3)
      (all : List.Forall₂ IsRegisterToken operands registers) :
      Parses (operator :: operands) (ofRegisters mnemonic flags registers)
  | number {operator last : String} {front : List String} {mnemonic : Mnemonic}
      {flags : FlagSet} {registers : List Register} {immediate : Immediate}
      (isOperator : IsOperator operator mnemonic flags)
      (short : front.length ≤ 1)
      (all : List.Forall₂ IsRegisterToken front registers)
      (isNumber : IsNumberToken last immediate) :
      Parses (operator :: (front ++ [last]))
        (ofNumber mnemonic flags registers[0]? immediate)
  | operator {operator : String} {mnemonic : Mnemonic} {flags : FlagSet}
      (isOperator : IsOperator operator mnemonic flags)
      (shape : isImmediateLine [operator] = true) :
      Parses [operator] (ofNumber mnemonic flags none .absent)

theorem readInstruction_cons {operator : String} {operands : List String}
    {mnemonic : Mnemonic} {flags : FlagSet}
    (isOperator : IsOperator operator mnemonic flags) :
    readInstruction (operator :: operands) =
      if isImmediateLine (operator :: operands) then
        readImmediateOperands mnemonic (ofNumber mnemonic flags none .absent)
          operands
      else
        readRegisterOperands mnemonic (ofRegisters mnemonic flags [])
          operands := by
  simp only [readInstruction, readOperator_eq_ok_iff.mpr isOperator]
  rfl

theorem parses_of_readInstruction {tokens : List String}
    {instruction : Instruction}
    (read : readInstruction tokens = .ok instruction) :
    Parses tokens instruction := by
  cases tokens with
  | nil => cases read
  | cons operator operands =>
      rcases bind_eq_ok_iff.mp read with ⟨⟨mnemonic, flags⟩, readOperation, -⟩
      have isOperator := readOperator_eq_ok_iff.mp readOperation
      rw [readInstruction_cons isOperator] at read
      split at read
      case isTrue line =>
        rcases List.eq_nil_or_concat operands with rfl | ⟨front, last, rfl⟩
        · cases read
          exact .operator isOperator line
        · rw [List.concat_eq_append] at read line ⊢
          rw [readImmediateOperands_eq] at read
          split at read
          case isFalse => cases read
          case isTrue short =>
            rcases bind_eq_ok_iff.mp read with ⟨registers, all, rest⟩
            rcases bind_eq_ok_iff.mp rest with ⟨immediate, readNumber, same⟩
            cases same
            rw [← List.cons_append, isImmediateLine_concat, Bool.and_eq_true,
              Bool.not_eq_true'] at line
            have isNumber :=
              readImmediate_eq_ok_iff.mp ⟨line.1, line.2, readNumber⟩
            exact .number isOperator short (mapM_readRegister_eq_ok_iff.mp all)
              isNumber
      case isFalse line =>
        rw [readRegisterOperands_eq] at read
        split at read
        case isFalse => cases read
        case isTrue short =>
          rcases bind_eq_ok_iff.mp read with ⟨registers, all, same⟩
          cases same
          exact .registers isOperator (Bool.not_eq_true _ ▸ line) short
            (mapM_readRegister_eq_ok_iff.mp all)

theorem Parses.readInstruction {tokens : List String}
    {instruction : Instruction} (parses : Parses tokens instruction) :
    readInstruction tokens = .ok instruction := by
  cases parses with
  | registers isOperator shape short all =>
      rw [readInstruction_cons isOperator, shape, readRegisterOperands_eq,
        if_pos short]
      exact bind_eq_ok_iff.mpr ⟨_, mapM_readRegister_eq_ok_iff.mpr all, rfl⟩
  | number isOperator short all isNumber =>
      rcases readImmediate_eq_ok_iff.mpr isNumber with
        ⟨isImmediate, noMnemonic, readNumber⟩
      rw [readInstruction_cons isOperator, ← List.cons_append,
        isImmediateLine_concat, isImmediate, noMnemonic,
        readImmediateOperands_eq, if_pos short]
      exact bind_eq_ok_iff.mpr ⟨_, mapM_readRegister_eq_ok_iff.mpr all,
        bind_eq_ok_iff.mpr ⟨_, readNumber, rfl⟩⟩
  | operator isOperator shape =>
      rw [readInstruction_cons isOperator, shape]
      rfl

/-! ## Counting operands -/

/--
With flags that its operation takes, an instruction can have only a wrong number
of operands.
-/
theorem validate_eq {instruction : Instruction} {mnemonic : Mnemonic}
    (hasMnemonic : instruction.mnemonic? = some mnemonic)
    (supported : Supports mnemonic instruction.flags) :
    validate instruction =
      if instruction.operandCount =
        mnemonic.operands.count instruction.shape then .ok ()
      else .error (.operandCount mnemonic instruction.operandCount
        (mnemonic.operands.count instruction.shape)) := by
  have passes (flag : Flag) :
      validateFlag mnemonic instruction.flags flag = .ok () := by
    unfold validateFlag
    cases has : instruction.flags.has flag with
    | false => rfl
    | true => simp [supported flag has]
  rw [validate, hasMnemonic]
  by_cases count :
      instruction.operandCount = mnemonic.operands.count instruction.shape
  · simp only [count, passes, ne_eq, not_true_eq_false, if_false, if_true]
    rfl
  · simp only [count, ne_eq, not_false_eq_true, if_false, if_true]
    rfl

theorem Parses.hasMnemonic {tokens : List String} {instruction : Instruction}
    (parses : Parses tokens instruction) :
    ∃ mnemonic, instruction.mnemonic? = some mnemonic ∧
      Supports mnemonic instruction.flags := by
  cases parses with
  | registers isOperator =>
      exact ⟨_, mnemonic?_ofRegisters .., isOperator.supports⟩
  | number isOperator => exact ⟨_, mnemonic?_ofNumber .., isOperator.supports⟩
  | operator isOperator => exact ⟨_, mnemonic?_ofNumber .., isOperator.supports⟩

/-- Only one operation has no operands, in either shape. -/
theorem eq_don_of_count_eq_zero {mnemonic : Mnemonic} {shape : Shape}
    (none : mnemonic.operands.count shape = 0) : mnemonic = .don := by
  cases mnemonic <;> cases shape <;> first | rfl | cases none

/--
The operation without operands takes no flags, so that its operator is its name.
-/
theorem isImmediateLine_don {operator : String} {flags : FlagSet}
    (isOperator : IsOperator operator .don flags) :
    isImmediateLine [operator] = false := by
  rcases isOperator with ⟨suffix, letters, -, takes, -⟩
  cases suffix with
  | nil =>
      have named : operator = "DON" :=
        String.toList_inj.mp (by simpa [Mnemonic.name] using letters)
      rw [named]
      decide
  | cons flag rest =>
      have taken := takes flag (by simp)
      cases flag <;> cases taken

theorem isSome_destination {front : List String} {registers : List Register}
    (short : front.length ≤ 1)
    (all : List.Forall₂ IsRegisterToken front registers) :
    registers[0]?.isSome.toNat + 1 = front.length + 1 := by
  cases all with
  | nil => rfl
  | cons _ rest =>
      cases rest with
      | nil => rfl
      | cons => simp at short

theorem writes_of_parses {tokens : List String} {instruction : Instruction}
    {mnemonic : Mnemonic} (parses : Parses tokens instruction)
    (hasMnemonic : instruction.mnemonic? = some mnemonic)
    (count : instruction.operandCount =
      mnemonic.operands.count instruction.shape) :
    Writes tokens instruction := by
  cases parses with
  | registers isOperator shape short all =>
      rw [mnemonic?_ofRegisters] at hasMnemonic
      cases hasMnemonic
      rw [operandCount_ofRegisters (all.length_eq ▸ short),
        ← all.length_eq] at count
      exact .registers isOperator count all
  | number isOperator short all isNumber =>
      rw [mnemonic?_ofNumber] at hasMnemonic
      cases hasMnemonic
      rw [operandCount_ofNumber isNumber.present,
        isSome_destination short all] at count
      exact .number isOperator count all isNumber
  | operator isOperator shape =>
      rw [mnemonic?_ofNumber] at hasMnemonic
      cases hasMnemonic
      obtain rfl := eq_don_of_count_eq_zero count.symm
      rw [isImmediateLine_don isOperator] at shape
      cases shape

theorem Writes.parses {tokens : List String} {instruction : Instruction}
    (writes : Writes tokens instruction) :
    Parses tokens instruction ∧ ∃ mnemonic,
      instruction.mnemonic? = some mnemonic ∧
      instruction.operandCount = mnemonic.operands.count instruction.shape := by
  cases writes with
  | @registers operator operands mnemonic flags registers isOperator
      count all =>
      have short : operands.length ≤ 3 := count ▸ register_operands_le mnemonic
      have shape : isImmediateLine (operator :: operands) = false := by
        rcases List.eq_nil_or_concat operands with rfl | ⟨front, last, rfl⟩
        · obtain rfl := @eq_don_of_count_eq_zero mnemonic .register count.symm
          exact isImmediateLine_don isOperator
        · rw [List.concat_eq_append, ← List.cons_append, isImmediateLine_concat]
          rcases exists_related all last (by simp) with ⟨register, token⟩
          rw [token.isImmediate, Bool.false_and]
      refine ⟨.registers isOperator shape short all, mnemonic,
        mnemonic?_ofRegisters .., ?_⟩
      rw [operandCount_ofRegisters (all.length_eq ▸ short), ← all.length_eq]
      exact count
  | @number operator last front mnemonic flags registers immediate isOperator
      count all isNumber =>
      have short := length_le_one count
      refine ⟨.number isOperator short all isNumber, mnemonic,
        mnemonic?_ofNumber .., ?_⟩
      rw [operandCount_ofNumber isNumber.present, isSome_destination short all]
      exact count

/--
Reading a statement is reading an instruction and holding it to its operation.
-/
theorem readStatement_eq_ok_iff {tokens : List String}
    {instruction : Instruction} :
    readStatement tokens = .ok instruction ↔
      readInstruction tokens = .ok instruction ∧
        validate instruction = .ok () := by
  simp only [readStatement, bind_eq_ok_iff, pure_eq_ok_iff]
  constructor
  · rintro ⟨read, parsed, ⟨⟩, valid, rfl⟩
    exact ⟨parsed, valid⟩
  · rintro ⟨parsed, valid⟩
    exact ⟨instruction, parsed, (), valid, rfl⟩

/--
The lines that are read and held to their operations are those of the grammar.
-/
theorem readStatement_iff_writes {tokens : List String}
    {instruction : Instruction} :
    readStatement tokens = .ok instruction ↔ Writes tokens instruction := by
  rw [readStatement_eq_ok_iff]
  constructor
  · rintro ⟨read, valid⟩
    have parses := parses_of_readInstruction read
    rcases parses.hasMnemonic with ⟨mnemonic, hasMnemonic, supported⟩
    rw [validate_eq hasMnemonic supported] at valid
    split at valid
    case isTrue count => exact writes_of_parses parses hasMnemonic count
    case isFalse => cases valid
  · intro writes
    rcases writes.parses with ⟨parses, mnemonic, hasMnemonic, count⟩
    rcases parses.hasMnemonic with ⟨same, hasSame, supported⟩
    rw [hasMnemonic] at hasSame
    cases hasSame
    exact ⟨parses.readInstruction,
      by rw [validate_eq hasMnemonic supported, if_pos count]⟩

/-! ## The language of instruction lines -/

/--
A line is read and held to its operation exactly if the grammar has it, and the
instruction is the one that the grammar gives.  A line that can be read is
refused only for the number of its operands, never for its operation or its
flags.
-/
theorem instruction_grammar :
    (∀ tokens instruction,
        (readInstruction tokens = .ok instruction ∧
          validate instruction = .ok ()) ↔
          Writes tokens instruction) ∧
      ∀ tokens instruction fault,
        readInstruction tokens = .ok instruction →
          validate instruction = .error fault →
          ∃ mnemonic, instruction.mnemonic? = some mnemonic ∧
            instruction.operandCount ≠
              mnemonic.operands.count instruction.shape ∧
            fault = .operandCount mnemonic instruction.operandCount
              (mnemonic.operands.count instruction.shape) := by
  constructor
  · intro tokens instruction
    rw [← readStatement_eq_ok_iff, readStatement_iff_writes]
  · intro tokens instruction fault read refused
    rcases (parses_of_readInstruction read).hasMnemonic with
      ⟨mnemonic, hasMnemonic, supported⟩
    rw [validate_eq hasMnemonic supported] at refused
    split at refused
    case isTrue => cases refused
    case isFalse count =>
      cases refused
      exact ⟨mnemonic, hasMnemonic, count, rfl⟩

/--
Flags in either order, a second spelling of a register and a comma too many are
accepted.  An operator alone has the form of a label, and its line is refused
for having no operands.
-/
theorem instruction_grammar_spellings :
    let sum := ofRegisters .add .both [⟨1⟩, ⟨2⟩, ⟨12⟩]
    let move := ofNumber .mov ⟨false, true⟩ none .absent
    Writes ["ADDSN", "R1,", "R02", "SP,"] sum ∧
      readInstruction ["MOVS"] = .ok move ∧
      validate move = .error (.operandCount .mov 0 2) ∧
      ∃ mnemonic, move.mnemonic? = some mnemonic ∧
        move.operandCount ≠ mnemonic.operands.count move.shape ∧
        Fault.operandCount .mov 0 2 =
          .operandCount mnemonic move.operandCount
            (mnemonic.operands.count move.shape) :=
  ⟨(instruction_grammar.1 _ _).mp ⟨rfl, rfl⟩, rfl, rfl,
    instruction_grammar.2 ["MOVS"] _ _ rfl rfl⟩

end Asm24.Assembly
