import Asm24.Proofs.LastBody
import Asm24.Proofs.Program
import Asm24.Proofs.SourceText
import Asm24.Proofs.Steps

/-!
# Failures and their positions

Assembling stops in one of four passes: when the lines are cut into sections,
when the block of data or the block of code is read, or when the labels are
linked.  Encoding and the comparison after it never stop a source that comes so
far.  Each pass works on its own lines and has its own kinds of faults, and a
failure is at one of these lines and of one of these kinds.

Readers are composed of readers, so what they may fail for is composed as well:
`FailsOnly` holds of a sequence if it holds of its parts.
-/

namespace Asm24.Proofs

variable {cause value result state : Type}

/-- A computation that, if it fails, fails for an admitted cause. -/
def FailsOnly (admitted : cause → Prop) (outcome : Except cause value) : Prop :=
  ∀ failure, outcome = .error failure → admitted failure

namespace FailsOnly

variable {admitted : cause → Prop}

theorem ok (final : value) : FailsOnly admitted (.ok final) := by
  intro failure failed
  cases failed

theorem error {failure : cause} (admits : admitted failure) :
    FailsOnly admitted (.error failure : Except cause value) := by
  intro other failed
  cases failed
  exact admits

theorem bind {first : Except cause value} {second : value → Except cause result}
    (firsts : FailsOnly admitted first)
    (seconds : ∀ middle, FailsOnly admitted (second middle)) :
    FailsOnly admitted (first >>= second) := by
  intro failure failed
  rcases bind_eq_error_iff.mp failed with failed | ⟨middle, -, failed⟩
  · exact firsts failure failed
  · exact seconds middle failure failed

theorem guard {condition : Prop} [Decidable condition] {failure : cause}
    {skipped : value → Except cause result} {rest : Except cause result}
    (admits : admitted failure) (rests : FailsOnly admitted rest) :
    FailsOnly admitted (if condition then
      (.error failure >>= skipped) else rest) := by
  by_cases holds : condition
  · rw [if_pos holds]
    exact error admits
  · rwa [if_neg holds]

theorem foldlM {step : state → value → Except cause state} {values : List value}
    {start : state} (steps : ∀ reached, ∀ value ∈ values,
      FailsOnly admitted (step reached value)) :
    FailsOnly admitted (values.foldlM step start) := by
  induction values generalizing start with
  | nil => exact ok start
  | cons first rest ih =>
      rw [List.foldlM_cons]
      apply bind (steps start first List.mem_cons_self)
      intro next
      apply ih
      intro reached value member
      exact steps reached value (List.mem_cons_of_mem first member)

theorem map {outcome : Except cause value} {convert : value → result}
    (only : FailsOnly admitted outcome) :
    FailsOnly admitted (outcome.map convert) := by
  intro failure failed
  cases outcome with
  | error other =>
      exact only failure (congrArg Except.error (Except.error.inj failed))
  | ok final => cases failed

end FailsOnly

end Asm24.Proofs

namespace Asm24.Assembly

open Asm24.Machine
open Asm24.Proofs

/-! ## Kinds of faults -/

/-- A fault of one of the kinds. -/
def Fault.IsOf (kinds : List Kind) (fault : Fault) : Prop :=
  fault.kind ∈ kinds

/-- Only faults of linking name a label. -/
theorem Fault.label_eq_empty {fault : Fault} (other : fault.kind ≠ .linking) :
    fault.label = "" := by
  cases fault with
  | undeclaredLabel => exact absurd rfl other
  | _ => rfl

/-- The kinds of the faults of a line of data. -/
def dataKinds : List Kind :=
  [.labels, .allocations]

/-- The kinds of the faults of a line of code. -/
def codeKinds : List Kind :=
  [.labels, .mnemonics, .flags, .operands, .immediates, .registers,
    .allocations]

/-- The kind of the faults of a number that is out of range. -/
def Quantity.kind : Quantity → Kind
  | .immediate => .immediates
  | .integer => .allocations

theorem Literal.kind_rangeFault (quantity : Quantity) (negative : Bool)
    (text : String) :
    (rangeFault quantity negative text).kind = quantity.kind := by
  cases quantity <;> cases negative <;> rfl

theorem Literal.rangeFault_failsOnly {value : Type} {kinds : List Kind}
    {quantity : Quantity} (admits : quantity.kind ∈ kinds) (negative : Bool)
    (text : String) :
    FailsOnly (Fault.IsOf kinds)
      (.error (rangeFault quantity negative text) : Except Fault value) := by
  apply FailsOnly.error
  rwa [Fault.IsOf, kind_rangeFault]

theorem Literal.checkRange_failsOnly {kinds : List Kind} {quantity : Quantity}
    (admits : quantity.kind ∈ kinds) (value : Int) :
    FailsOnly (Fault.IsOf kinds) (checkRange quantity value) := by
  unfold checkRange
  split
  case isTrue => exact .ok value
  case isFalse => exact rangeFault_failsOnly admits _ _

section Allocations

variable {kinds : List Kind} (allocations : Kind.allocations ∈ kinds)

include allocations

theorem Allocation.readValue_failsOnly (word : String) :
    FailsOnly (Fault.IsOf kinds) (readValue word) := by
  unfold readValue
  dsimp only
  split
  case h_1 value _ => exact Literal.checkRange_failsOnly allocations value
  case h_2 => exact Literal.rangeFault_failsOnly allocations _ _
  case h_3 => exact .error allocations

theorem Allocation.readSize_failsOnly (word : String) :
    FailsOnly (Fault.IsOf kinds) (readSize word) := by
  unfold readSize
  split
  case h_1 => exact .error allocations
  case h_2 size _ =>
    split
    case isTrue => exact .error allocations
    case isFalse =>
      split
      case isTrue => exact .error allocations
      case isFalse => exact .ok (UInt32.ofNat size.toNat)

/--
Numbers in directives have faults of their own kind, not those of immediate
operands.
-/
theorem Allocation.read_failsOnly (tokens : List String) (offset : UInt32) :
    FailsOnly (Fault.IsOf kinds) (read tokens offset) := by
  unfold read
  split
  case h_1 => exact .error allocations
  case h_2 =>
    split
    case h_1 word =>
      exact .bind (readValue_failsOnly allocations word) (fun _ => .ok _)
    case h_2 => exact .error allocations
  case h_3 =>
    split
    case h_1 sizeWord =>
      exact .bind (readSize_failsOnly allocations sizeWord) (fun _ => .ok _)
    case h_2 sizeWord valueWord =>
      apply FailsOnly.bind (readSize_failsOnly allocations sizeWord)
      intro size
      exact .bind (readValue_failsOnly allocations valueWord) (fun _ => .ok _)
    case h_3 => exact .error allocations
  case h_4 => exact .error allocations
  case h_5 => exact .error allocations

end Allocations

theorem Literal.number_failsOnly {kinds : List Kind}
    (immediates : Kind.immediates ∈ kinds) (text : String) :
    FailsOnly (Fault.IsOf kinds) (number text) := by
  unfold number
  split
  case h_1 value _ => exact .ok value
  case h_2 => exact rangeFault_failsOnly immediates _ _
  case h_3 => exact .error immediates

theorem readImmediate_failsOnly (word : String) :
    FailsOnly (Fault.IsOf codeKinds) (readImmediate word) := by
  have immediates : Kind.immediates ∈ codeKinds := by decide
  unfold readImmediate
  split
  case isTrue => exact .ok _
  case isFalse =>
    split
    case isTrue =>
      apply FailsOnly.bind (Literal.number_failsOnly immediates _)
      intro value
      exact .bind (Literal.checkRange_failsOnly immediates value)
        (fun _ => .ok _)
    case isFalse => exact .error immediates

theorem readRegister_failsOnly (word : String) :
    FailsOnly (Fault.IsOf codeKinds) (readRegister word) := by
  have registers : Kind.registers ∈ codeKinds := by decide
  unfold readRegister
  dsimp only
  split
  case isTrue =>
    split
    case h_1 register _ => exact .ok register
    case h_2 => exact .error registers
  case isFalse => exact .error registers

theorem readFlags_failsOnly (operator : String) (mnemonic : Mnemonic)
    (flags : FlagSet) (letters : List Char) :
    FailsOnly (Fault.IsOf codeKinds)
      (readFlags operator mnemonic flags letters) := by
  have flagsKind : Kind.flags ∈ codeKinds := by decide
  induction letters generalizing flags with
  | nil => exact .ok flags
  | cons letter rest ih =>
      unfold readFlags
      split
      case h_1 => exact .error flagsKind
      case h_2 flag _ =>
        split
        case isTrue => exact .error flagsKind
        case isFalse =>
          split
          case isTrue => exact .error flagsKind
          case isFalse => exact ih (flags.insert flag)

theorem readOperator_failsOnly (operator : String) :
    FailsOnly (Fault.IsOf codeKinds) (readOperator operator) := by
  unfold readOperator
  split
  case h_1 => exact .error (by decide : Kind.mnemonics ∈ codeKinds)
  case h_2 mnemonic _ =>
    exact .bind (readFlags_failsOnly operator mnemonic _ _) (fun _ => .ok _)

theorem readImmediateOperands_failsOnly (mnemonic : Mnemonic)
    (instruction : Instruction) (operands : List String) :
    FailsOnly (Fault.IsOf codeKinds)
      (readImmediateOperands mnemonic instruction operands) := by
  unfold readImmediateOperands
  split
  case h_1 => exact .ok instruction
  case h_2 last => exact .bind (readImmediate_failsOnly last) (fun _ => .ok _)
  case h_3 register last =>
    apply FailsOnly.bind (readRegister_failsOnly register)
    intro destination
    exact .bind (readImmediate_failsOnly last) (fun _ => .ok _)
  case h_4 => exact .error (by decide : Kind.operands ∈ codeKinds)

theorem readRegisterOperands_failsOnly (mnemonic : Mnemonic)
    (instruction : Instruction) (operands : List String) :
    FailsOnly (Fault.IsOf codeKinds)
      (readRegisterOperands mnemonic instruction operands) := by
  unfold readRegisterOperands
  split
  case h_1 => exact .ok instruction
  case h_2 word => exact .bind (readRegister_failsOnly word) (fun _ => .ok _)
  case h_3 word firstWord =>
    apply FailsOnly.bind (readRegister_failsOnly word)
    intro destination
    exact .bind (readRegister_failsOnly firstWord) (fun _ => .ok _)
  case h_4 word firstWord secondWord =>
    apply FailsOnly.bind (readRegister_failsOnly word)
    intro destination
    apply FailsOnly.bind (readRegister_failsOnly firstWord)
    intro first
    exact .bind (readRegister_failsOnly secondWord) (fun _ => .ok _)
  case h_5 => exact .error (by decide : Kind.operands ∈ codeKinds)

theorem readInstruction_failsOnly (tokens : List String) :
    FailsOnly (Fault.IsOf codeKinds) (readInstruction tokens) := by
  unfold readInstruction
  split
  case h_1 => exact .error (by decide : Kind.operands ∈ codeKinds)
  case h_2 operator operands =>
    apply FailsOnly.bind (readOperator_failsOnly operator)
    rintro ⟨mnemonic, flags⟩
    dsimp only
    split
    case isTrue => exact readImmediateOperands_failsOnly mnemonic _ operands
    case isFalse => exact readRegisterOperands_failsOnly mnemonic _ operands

theorem validateFlag_failsOnly (mnemonic : Mnemonic) (flags : FlagSet)
    (flag : Flag) :
    FailsOnly (Fault.IsOf codeKinds) (validateFlag mnemonic flags flag) := by
  unfold validateFlag
  split
  case isTrue => exact .error (by decide : Kind.flags ∈ codeKinds)
  case isFalse => exact .ok ()

theorem validate_failsOnly (instruction : Instruction) :
    FailsOnly (Fault.IsOf codeKinds) (validate instruction) := by
  unfold validate
  split
  case h_1 => exact .error (by decide : Kind.mnemonics ∈ codeKinds)
  case h_2 mnemonic _ =>
    dsimp only
    apply FailsOnly.guard
    · exact (by decide : Kind.operands ∈ codeKinds)
    · apply FailsOnly.bind (validateFlag_failsOnly mnemonic _ _)
      exact fun _ => validateFlag_failsOnly mnemonic _ _

theorem readStatement_failsOnly (tokens : List String) :
    FailsOnly (Fault.IsOf codeKinds) (readStatement tokens) := by
  apply FailsOnly.bind (readInstruction_failsOnly tokens)
  intro instruction
  exact .bind (validate_failsOnly instruction) (fun _ => .ok instruction)

/-! ## Positions -/

/--
A failure at one of the lines of a source, for a fault of one of the kinds.
-/
structure Failure.Within (source : String) (lines : List Line)
    (kinds : List Kind) (failure : Failure) : Prop where
  source : failure.source = source
  line : failure.line ∈ lines
  kind : failure.fault.kind ∈ kinds

theorem locate_failsOnly {result : Type} {source : String} {lines : List Line}
    {line : Line} {kinds : List Kind} {outcome : Except Fault result}
    (member : line ∈ lines) (only : FailsOnly (Fault.IsOf kinds) outcome) :
    FailsOnly (Failure.Within source lines kinds)
      (locate source line outcome) := by
  cases outcome with
  | error fault => exact .error ⟨rfl, member, only fault rfl⟩
  | ok value => exact .ok value

/--
The lines that cutting into sections looks at: those up to the first header and
all headers.
-/
def boundaries (lines : List Line) : List Line :=
  untilHeader lines ++ lines.filter Line.isHeader

theorem Line.opens_failsOnly (header : Line) :
    FailsOnly (Fault.IsOf [.sections]) header.opens := by
  have sections : Kind.sections ∈ [Kind.sections] := by decide
  unfold opens
  split
  case h_1 =>
    split
    case h_1 owner _ => exact .ok owner
    case h_2 => exact .error sections
  case h_2 => exact .error sections

theorem Block.carve_failsOnly (source : String) (lines : List Line) :
    FailsOnly (Failure.Within source (lines.filter Line.isHeader) [.sections])
      (carve source lines) := by
  induction lines with
  | nil => exact .ok ([], [])
  | cons line rest ih =>
      unfold carve
      by_cases header : line.isHeader = true
      · rw [if_pos header, List.filter_cons_of_pos header]
        apply FailsOnly.bind
        · exact locate_failsOnly List.mem_cons_self line.opens_failsOnly
        · intro owner
          apply FailsOnly.bind
          · intro failure failed
            rcases ih failure failed with ⟨isSource, member, kind⟩
            exact ⟨isSource, List.mem_cons_of_mem line member, kind⟩
          · exact fun _ => .ok _
      · rw [if_neg header, List.filter_cons_of_neg header]
        exact .bind ih (fun _ => .ok _)

theorem Sections.ofLines_failsOnly (source : String) (lines : List Line) :
    FailsOnly (Failure.Within source (boundaries lines) [.sections])
      (ofLines source lines) := by
  cases stray : Block.stray? lines with
  | some line =>
      rw [ofLines_of_stray stray]
      have lead : line ∈ untilHeader lines := List.mem_of_find?_eq_some stray
      exact .error ⟨rfl, List.mem_append_left _ lead,
        List.mem_singleton.mpr rfl⟩
  | none =>
      rw [ofLines_of_no_stray stray]
      apply FailsOnly.map
      intro failure failed
      rcases Block.carve_failsOnly source lines failure failed with
        ⟨isSource, member, kind⟩
      exact ⟨isSource, List.mem_append_right _ member, kind⟩

/-! ## Reading passes -/

/--
A pass fails at one of its lines, at a label that is repeated or where its
reader fails.
-/
theorem runPass_failsOnly {item : Type} {base : Address} {source : String}
    {read : CodeReader item} {lines : List Line} {kinds : List Kind}
    (labels : Kind.labels ∈ kinds) (reads : ∀ used, ∀ line ∈ lines, ∀ tokens,
      FailsOnly (Failure.Within source lines kinds) (read used line tokens))
    (symbols : SymbolTable) (used : UInt32) :
    FailsOnly (Failure.Within source lines kinds)
      (runPass base source read symbols used lines) := by
  apply FailsOnly.map
  apply FailsOnly.foldlM
  intro state line member
  unfold passStep
  split
  case h_1 name _ =>
    apply FailsOnly.bind
    · apply locate_failsOnly member
      unfold SymbolTable.define
      split
      case h_1 => exact .error labels
      case h_2 => exact .ok _
    · exact fun _ => .ok _
  case h_2 => exact .ok state
  case h_3 tokens _ =>
    exact .bind (reads state.used line member tokens) (fun _ => .ok _)

theorem readData_failsOnly (source : String) (symbols : SymbolTable)
    (used : UInt32) (lines : List Line) :
    FailsOnly (Failure.Within source lines dataKinds)
      (readData source symbols used lines) := by
  rw [readData_eq_run]
  apply runPass_failsOnly (by decide)
  intro used line member tokens
  have allocations : Kind.allocations ∈ dataKinds := by decide
  apply FailsOnly.bind
    (locate_failsOnly member
      (Allocation.read_failsOnly allocations tokens used))
  intro allocation
  dsimp only
  apply FailsOnly.guard
  · exact ⟨rfl, member, allocations⟩
  · exact .ok _

theorem readCode_failsOnly (source : String) (symbols : SymbolTable)
    (count : UInt32) (lines : List Line) :
    FailsOnly (Failure.Within source lines codeKinds)
      (readCode source symbols count lines) := by
  rw [readCode_eq_run]
  apply runPass_failsOnly (by decide)
  intro count line member tokens
  apply FailsOnly.bind
    (locate_failsOnly member (readStatement_failsOnly tokens))
  intro instruction
  dsimp only
  apply FailsOnly.guard
  · exact ⟨rfl, member, (by decide : Kind.allocations ∈ codeKinds)⟩
  · exact .ok _

/-! ## Linking -/

/-- Linking stops at a statement whose label the table does not have. -/
theorem Statement.stop_of_linkAll {source : String} {symbols : SymbolTable}
    {statements linked : List Statement} {failure : Failure}
    (stopped : linkAll source symbols statements = (linked, some failure)) :
    ∃ statement ∈ statements, ∃ label, statement.pending? = some label ∧
      label ∉ symbols.names ∧ failure =
        ⟨.undeclaredLabel label, statement.line, source⟩ := by
  induction statements generalizing linked with
  | nil => cases stopped
  | cons statement rest ih =>
      unfold linkAll at stopped
      split at stopped
      case h_1 other failed =>
        cases stopped
        unfold link at failed
        split at failed
        case h_1 => cases failed
        case h_2 label pending =>
          split at failed
          case h_1 => cases failed
          case h_2 missing =>
            cases failed
            refine ⟨statement, List.mem_cons_self, label, pending, ?_, rfl⟩
            exact SymbolTable.lookup_eq_none_iff.mp missing
      case h_2 first _ =>
        rcases ih (Prod.ext rfl (Prod.mk.inj stopped).2) with
          ⟨other, member, label, pending, missing, same⟩
        exact ⟨other, List.mem_cons_of_mem statement member, label, pending,
          missing, same⟩

/-! ## Passes -/

/-- The passes in which assembling may stop. -/
inductive Pass where
  | sections
  | data
  | code
  | linking
  deriving DecidableEq

namespace Pass

/-- The kinds of the faults of a pass. -/
def kinds : Pass → List Kind
  | .sections => [.sections]
  | .data => dataKinds
  | .code => codeKinds
  | .linking => [.linking]

/-- The lines that a pass works on. -/
def scope (lines : List Line) : Pass → List Line
  | .sections => boundaries lines
  | .data => lastBody .readOnly lines
  | .code | .linking => lastBody .instruction lines

end Pass

/-- Assembling comes to a pass and stops in it. -/
inductive StopsIn (source : String) (lines : List Line) (failure : Failure) :
    Pass → Prop where
  | sections (failed : Sections.ofLines source lines = .error failure) :
      StopsIn source lines failure .sections
  | data {sections : Sections}
      (cut : Sections.ofLines source lines = .ok sections)
      (failed : readData source .empty 0 (sections.body .readOnly) =
        .error failure) :
      StopsIn source lines failure .data
  | code {sections : Sections} {symbols : SymbolTable}
      {allocations : List Allocation}
      (cut : Sections.ofLines source lines = .ok sections)
      (readLines : readData source .empty 0 (sections.body .readOnly) =
        .ok (symbols, allocations))
      (failed : readCode source symbols 0 (sections.body .instruction) =
        .error failure) :
      StopsIn source lines failure .code
  | linking {sections : Sections} {symbols final : SymbolTable}
      {allocations : List Allocation} {statements linked : List Statement}
      (cut : Sections.ofLines source lines = .ok sections)
      (readLines : readData source .empty 0 (sections.body .readOnly) =
        .ok (symbols, allocations))
      (readOperations : readCode source symbols 0 (sections.body .instruction) =
        .ok (final, statements))
      (failed : Statement.linkAll source final statements =
        (linked, some failure)) :
      StopsIn source lines failure .linking

theorem refuse_eq_error_iff {result : Type} {outcome : Except Failure result}
    {error : AssemblyError} :
    refuse outcome = .error error ↔
      ∃ failure, error = .refused failure ∧ outcome = .error failure := by
  cases outcome with
  | error failure =>
      simp only [refuse, Except.error.injEq]
      constructor
      · rintro rfl
        exact ⟨failure, rfl, rfl⟩
      · rintro ⟨other, rfl, rfl⟩
        rfl
  | ok value => simp [refuse]

/--
Lines that are not assembled stop one of the passes; encoding does not stop
them, since linked statements all have words.
-/
theorem exists_stopsIn {source : String} {lines : List Line}
    {error : AssemblyError}
    (failed : assembleLines source lines = .error error) :
    ∃ failure pass, error = .refused failure ∧
      StopsIn source lines failure pass := by
  rcases bind_eq_error_iff.mp failed with refused | ⟨sections, cut, failed⟩
  · rcases refuse_eq_error_iff.mp refused with ⟨failure, rfl, stopped⟩
    exact ⟨failure, .sections, rfl, .sections stopped⟩
  rw [refuse_eq_ok_iff] at cut
  rcases bind_eq_error_iff.mp failed with
    refused | ⟨⟨symbols, allocations⟩, readLines, failed⟩
  · rcases refuse_eq_error_iff.mp refused with ⟨failure, rfl, stopped⟩
    exact ⟨failure, .data, rfl, .data cut stopped⟩
  rw [refuse_eq_ok_iff] at readLines
  rcases bind_eq_error_iff.mp failed with
    refused | ⟨⟨final, statements⟩, readOperations, failed⟩
  · rcases refuse_eq_error_iff.mp refused with ⟨failure, rfl, stopped⟩
    exact ⟨failure, .code, rfl, .code cut readLines stopped⟩
  rw [refuse_eq_ok_iff] at readOperations
  dsimp only at failed
  split at failed
  case h_1 linked failure stopped =>
    cases failed
    exact ⟨failure, .linking, rfl,
      .linking cut readLines readOperations stopped⟩
  case h_2 linked done =>
    rcases passes_eq_ok_iff.mp ⟨readLines, readOperations⟩ with
      ⟨laidOut, -, operates, -, rfl, -, rfl⟩
    rcases exists_words_of_linked laidOut operates
      (Statement.linkAll_eq_iff.mp done) with
      ⟨words, encoded⟩
    rw [mapM_eq_ok_iff.mpr encoded] at failed
    cases failed

/-- A label in the place of a number in a line, which no block declares. -/
structure IsUndeclared (lines : List Line) (line : Line) (label : String) :
    Prop where
  operand : ∃ instruction, readStatement line.tokens = .ok instruction ∧
    RefersTo instruction label
  last : line.tokens.getLast? = some label
  data : label ∉ declared (lastBody .readOnly lines)
  code : label ∉ declared (lastBody .instruction lines)

namespace StopsIn

variable {source : String} {lines : List Line} {failure : Failure}

/-- Linking stops at a line of code with a label that no block declares. -/
theorem isUndeclared (stops : StopsIn source lines failure .linking) :
    failure.Within source (lastBody .instruction lines) [.linking] ∧
      IsUndeclared lines failure.line failure.fault.label := by
  cases stops with
  | linking cut readLines readOperations failed =>
      rw [Sections.body_ofLines cut] at readLines readOperations
      rcases passes_eq_ok_iff.mp ⟨readLines, readOperations⟩ with
        ⟨-, -, operates, -, rfl, -, rfl⟩
      rcases Statement.stop_of_linkAll failed with
        ⟨statement, member, label, pending, missing, rfl⟩
      rcases of_mem_statements operates member with ⟨isCode, written⟩
      have operand :=
        (written_of_readStatement written).pending?_eq_some_iff.mp pending
      rcases readStatement_replace written operand with
        ⟨operator, middle, tokens, -⟩
      rw [names_symbolTable, List.mem_append, not_or] at missing
      refine ⟨⟨rfl, List.mem_of_mem_filter isCode, List.mem_singleton.mpr rfl⟩,
        ⟨_, written, operand⟩, ?_, missing.1, missing.2⟩
      rw [tokens]
      exact List.getLast?_concat

/--
A failure is at a line that its pass works on, and of a kind that the pass has.
-/
theorem within {pass : Pass} (stops : StopsIn source lines failure pass) :
    failure.Within source (pass.scope lines) pass.kinds := by
  cases stops with
  | sections failed =>
      exact Sections.ofLines_failsOnly source lines failure failed
  | data cut failed =>
      rw [Sections.body_ofLines cut] at failed
      exact readData_failsOnly source .empty 0 _ failure failed
  | @code sections symbols allocations cut readLines failed =>
      rw [Sections.body_ofLines cut] at failed
      exact readCode_failsOnly source symbols 0 _ failure failed
  | linking cut readLines readOperations failed =>
      exact (isUndeclared (.linking cut readLines readOperations failed)).1

/-- The kind is that of sections exactly if the lines have none. -/
theorem kind_eq_sections_iff {pass : Pass}
    (stops : StopsIn source lines failure pass) :
    failure.fault.kind = .sections ↔
      ∃ other, Sections.ofLines source lines = .error other := by
  have kind := stops.within.kind
  cases stops with
  | sections failed =>
      exact ⟨fun _ => ⟨failure, failed⟩, fun _ => List.mem_singleton.mp kind⟩
  | data cut | code cut | linking cut =>
      rw [cut]
      constructor
      · intro same
        rw [same] at kind
        exact absurd kind (by decide)
      · rintro ⟨other, failed⟩
        cases failed

/-- The kind is that of linking exactly if linking has stopped. -/
theorem kind_eq_linking_iff {pass : Pass}
    (stops : StopsIn source lines failure pass) :
    failure.fault.kind = .linking ↔ pass = .linking := by
  have kind := stops.within.kind
  constructor
  · intro same
    rw [same] at kind
    revert kind
    cases pass <;> decide
  · rintro rfl
    exact List.mem_singleton.mp kind

end StopsIn

/-! ## Lines of a text -/

theorem mem_of_mem_lastBody {owner : Section} {lines : List Line} {line : Line}
    (member : line ∈ lastBody owner lines) : line ∈ lines := by
  rw [lastBody] at member
  cases found : lastBody? owner lines with
  | none =>
      rw [found] at member
      cases member
  | some body =>
      rw [found, Option.getD_some] at member
      rcases exists_last_block found with
        ⟨before, block, after, rfl, -, -, rfl, -⟩
      rw [SourceBlock.lines]
      simp [member]

theorem Pass.mem_of_mem_scope {pass : Pass} {lines : List Line} {line : Line}
    (member : line ∈ pass.scope lines) : line ∈ lines := by
  cases pass with
  | sections =>
      rcases List.mem_append.mp member with lead | header
      · exact (List.takeWhile_prefix _).subset lead
      · exact List.mem_of_mem_filter header
  | data => exact mem_of_mem_lastBody member
  | code => exact mem_of_mem_lastBody member
  | linking => exact mem_of_mem_lastBody member

/--
What a diagnostic tells about the line of a text at which a pass has stopped.  A
label is given for linking only.
-/
structure Diagnostic.Describes (diagnostic : Diagnostic) (origin : String)
    (lines : List Line) (line : Line) (pass : Pass) : Prop where
  source : diagnostic.source = origin
  low : 1 ≤ diagnostic.line
  high : diagnostic.line ≤ lines.length
  place : lines[(diagnostic.line - 1).toNat]? = some line
  text : diagnostic.text = line.text
  scope : line ∈ pass.scope lines
  kind : diagnostic.kind ∈ pass.kinds
  sections : diagnostic.kind = .sections ↔
    ∃ failure, Sections.ofLines origin lines = .error failure
  linking : diagnostic.kind = .linking →
    IsUndeclared lines line diagnostic.label
  label : diagnostic.kind ≠ .linking → diagnostic.label = ""

/--
A text that is not assembled is refused with a diagnostic of the line at which
one of the passes has stopped.
-/
theorem describes_of_assemble_error {source text : String}
    {error : AssemblyError} (failed : assemble source text = .error error) :
    ∃ failure pass line, error = .refused failure ∧
      StopsIn source (Line.split text) failure pass ∧
      failure.diagnostic.Describes source (Line.split text) line pass := by
  rcases exists_stopsIn failed with ⟨failure, pass, rfl, stops⟩
  rcases stops.within with ⟨isSource, scope, kind⟩
  rcases List.getElem?_of_mem (Pass.mem_of_mem_scope scope) with ⟨index, found⟩
  have number := Line.number_of_getElem?_split found
  rcases List.getElem?_eq_some_iff.mp found with ⟨inside, -⟩
  refine ⟨failure, pass, failure.line, rfl, stops, ?_⟩
  constructor
  case source => exact isSource
  case low =>
    change 1 ≤ failure.line.number
    omega
  case high =>
    change failure.line.number ≤ _
    omega
  case place =>
    change (Line.split text)[(failure.line.number - 1).toNat]? = _
    rwa [number, Int.add_sub_cancel, Int.toNat_natCast]
  case text => rfl
  case scope => exact scope
  case kind => exact kind
  case sections => exact stops.kind_eq_sections_iff
  case linking =>
    intro linking
    rw [stops.kind_eq_linking_iff.mp linking] at stops
    exact stops.isUndeclared.2
  case label => exact Fault.label_eq_empty

/-- A text that refers to a label it does not declare, in its third line. -/
theorem describes_undeclared_end :
    assemble "loop.asm" "\n.section instruction\nbal end" =
      .error (.refused ⟨.undeclaredLabel "END", ⟨3, "BAL END"⟩, "loop.asm"⟩) ∧
    ∃ failure pass line,
      AssemblyError.refused ⟨.undeclaredLabel "END", ⟨3, "BAL END"⟩,
        "loop.asm"⟩ =
        .refused failure ∧
      StopsIn "loop.asm" (Line.split "\n.section instruction\nbal end")
        failure pass ∧
      failure.diagnostic.Describes "loop.asm"
        (Line.split "\n.section instruction\nbal end") line pass := by
  have failed : assemble "loop.asm" "\n.section instruction\nbal end" =
      .error (.refused ⟨.undeclaredLabel "END", ⟨3, "BAL END"⟩,
        "loop.asm"⟩) := by
    decide +kernel
  exact ⟨failed, describes_of_assemble_error failed⟩

end Asm24.Assembly
