import Asm24.Proofs.Linking

/-!
# Linking that is resumed

Linking stops at the first statement whose label the table does not have.  What
it has linked until then keeps the value, and what comes after keeps its labels.
A linked slot holds a plain value, which linking passes over, and a larger table
gives the labels that were replaced the same addresses.  So linking can go on
from there: a table that has more labels makes of the partly linked statements
what it makes of the original ones.

`LinkedBy` says what linking does to one statement, in terms of its slots only.
-/

namespace Asm24.Assembly

open Asm24.Machine
open Asm24.Proofs

/-- A table that binds all labels of another one, to the same addresses. -/
def SymbolTable.Extends (larger table : SymbolTable) : Prop :=
  ∀ name address, table.lookup name = some address →
    larger.lookup name = some address

/-- Defining a label keeps all bindings. -/
theorem SymbolTable.extends_of_define {table larger : SymbolTable}
    {name : String} {address : Address}
    (defined : table.define name address = .ok larger) :
    larger.Extends table := by
  intro other bound found
  unfold define at defined
  split at defined
  case h_1 => cases defined
  case h_2 =>
    cases defined
    rw [lookup] at found
    rw [lookup, List.lookup_append, found, Option.some_or]

namespace Statement

/-- The number slot of an immediate statement refers to a label. -/
structure Awaits (statement : Statement) (label : String) : Prop where
  shape : statement.instruction.shape = .immediate
  present : statement.instruction.immediate.present = true
  named : statement.instruction.immediate.label = label
  nonempty : label ≠ ""

theorem pending?_eq_some_iff {statement : Statement} {label : String} :
    statement.pending? = some label ↔ statement.Awaits label := by
  unfold pending? Immediate.unlinked
  constructor
  · intro pending
    split at pending
    case isTrue refers =>
      cases pending
      simp only [Bool.and_eq_true, decide_eq_true_eq, bne_iff_ne] at refers
      exact ⟨refers.1, refers.2.1, rfl, refers.2.2⟩
    case isFalse => cases pending
  · rintro ⟨shape, present, rfl, nonempty⟩
    simp [shape, present, nonempty]

theorem pending?_eq_none_iff {statement : Statement} :
    statement.pending? = none ↔ ∀ label, ¬ statement.Awaits label := by
  simp only [Option.eq_none_iff_forall_ne_some, ne_eq, pending?_eq_some_iff]

/-- A label is awaited that the table does not have. -/
def Stops (symbols : SymbolTable) (statement : Statement) : Prop :=
  ∃ label, statement.Awaits label ∧ symbols.lookup label = none

instance (symbols : SymbolTable) (statement : Statement) :
    Decidable (statement.Stops symbols) :=
  decidable_of_iff (∃ label ∈ statement.pending?,
    symbols.lookup label = none) <| by
    simp only [Option.mem_def, pending?_eq_some_iff, Stops]

/--
An awaited label is replaced by its address as a plain value; all else is kept.
-/
inductive LinkedBy (symbols : SymbolTable) (statement : Statement) :
    Statement → Prop where
  | replaced {label : String} {address : Address}
      (awaits : statement.Awaits label)
      (bound : symbols.lookup label = some address) :
      LinkedBy symbols statement
        { statement with
          instruction :=
            { statement.instruction with
              immediate :=
        { value := address.toNat, label := "", present := true } } }
  | kept (settled : ∀ label, ¬ statement.Awaits label) :
      LinkedBy symbols statement statement

/--
All of a statement but its number slot, and the number slot too if it is of
register shape.
-/
structure SameFrame (before after : Statement) : Prop where
  address : after.address = before.address
  line : after.line = before.line
  opcode : after.instruction.opcode = before.instruction.opcode
  shape : after.instruction.shape = before.instruction.shape
  flags : after.instruction.flags = before.instruction.flags
  destination : after.instruction.destination = before.instruction.destination
  first : after.instruction.first = before.instruction.first
  second : after.instruction.second = before.instruction.second
  slot : before.instruction.shape = .register →
    after.instruction.immediate = before.instruction.immediate

theorem SameFrame.refl (statement : Statement) :
    SameFrame statement statement :=
  ⟨rfl, rfl, rfl, rfl, rfl, rfl, rfl, rfl, fun _ => rfl⟩

theorem link_eq_ok_iff_linkedBy {source : String} {symbols : SymbolTable}
    {statement linked : Statement} :
    statement.link source symbols = .ok linked ↔
      LinkedBy symbols statement linked := by
  rw [link_eq_ok_iff, pending?_eq_none_iff]
  simp only [pending?_eq_some_iff]
  constructor
  · rintro (⟨settled, rfl⟩ | ⟨label, address, awaits, bound, rfl⟩)
    · exact .kept settled
    · exact .replaced awaits bound
  · intro done
    cases done with
    | replaced awaits bound => exact .inr ⟨_, _, awaits, bound, rfl⟩
    | kept settled => exact .inl ⟨settled, rfl⟩

theorem link_of_stop {symbols : SymbolTable} {statement : Statement}
    {label : String} (awaits : statement.Awaits label)
    (unbound : symbols.lookup label = none) (source : String) :
    statement.link source symbols =
      .error ⟨.undeclaredLabel label, statement.line, source⟩ := by
  rw [link, pending?_eq_some_iff.mpr awaits]
  simp only [unbound]

theorem exists_linkedBy {symbols : SymbolTable} {statement : Statement}
    (passes : ¬ statement.Stops symbols) :
    ∃ linked, LinkedBy symbols statement linked := by
  by_cases awaited : ∃ label, statement.Awaits label
  · rcases awaited with ⟨label, awaits⟩
    cases bound : symbols.lookup label with
    | none => exact absurd ⟨label, awaits, bound⟩ passes
    | some address => exact ⟨_, .replaced awaits bound⟩
  · exact ⟨statement, .kept (not_exists.mp awaited)⟩

namespace LinkedBy

variable {symbols : SymbolTable} {statement linked : Statement}

/-- A linked statement awaits no label, so that every table keeps it. -/
theorem again (done : LinkedBy symbols statement linked) (other : SymbolTable) :
    LinkedBy other linked linked := by
  apply kept
  intro label awaits
  cases done with
  | replaced => exact awaits.nonempty awaits.named.symm
  | kept settled => exact settled label awaits

/-- What a table links, a larger one links in the same way. -/
theorem mono (done : LinkedBy symbols statement linked) {larger : SymbolTable}
    (more : larger.Extends symbols) : LinkedBy larger statement linked := by
  cases done with
  | replaced awaits bound => exact replaced awaits (more _ _ bound)
  | kept settled => exact kept settled

theorem sameFrame (done : LinkedBy symbols statement linked) :
    SameFrame statement linked := by
  cases done with
  | replaced awaits bound =>
      refine ⟨rfl, rfl, rfl, rfl, rfl, rfl, rfl, rfl, ?_⟩
      intro register
      rw [awaits.shape] at register
      cases register
  | kept => exact .refl statement

end LinkedBy

/-! ## Whole lists -/

section Lists

variable {symbols : SymbolTable} {statements linked : List Statement}

/-- Statements that can be linked are, and linking goes on behind them. -/
theorem linkAll_append
    (done : List.Forall₂ (LinkedBy symbols) statements linked) (source : String)
    (rest : List Statement) :
    linkAll source symbols (statements ++ rest) =
      (linked ++ (linkAll source symbols rest).1,
        (linkAll source symbols rest).2) := by
  induction done with
  | nil => rfl
  | cons first others ih =>
      rw [List.cons_append, linkAll, link_eq_ok_iff_linkedBy.mpr first, ih]
      rfl

theorem linkAll_of_linkedBy
    (done : List.Forall₂ (LinkedBy symbols) statements linked)
    (source : String) : linkAll source symbols statements = (linked, none) := by
  have whole := linkAll_append done source []
  rw [List.append_nil] at whole
  rw [whole, linkAll, List.append_nil]

theorem linkAll_of_stop
    (done : List.Forall₂ (LinkedBy symbols) statements linked)
    {stop : Statement} {label : String} (awaits : stop.Awaits label)
    (unbound : symbols.lookup label = none) (source : String)
    (after : List Statement) :
    linkAll source symbols (statements ++ stop :: after) =
      (linked ++ stop :: after,
        some ⟨.undeclaredLabel label, stop.line, source⟩) := by
  rw [linkAll_append done, linkAll, link_of_stop awaits unbound]

theorem exists_forall₂_linkedBy
    (passes : ∀ statement ∈ statements, ¬ statement.Stops symbols) :
    ∃ linked, List.Forall₂ (LinkedBy symbols) statements linked := by
  induction statements with
  | nil => exact ⟨[], .nil⟩
  | cons statement rest ih =>
      rcases List.forall_mem_cons.mp passes with ⟨first, others⟩
      rcases exists_linkedBy first with ⟨head, linkedHead⟩
      rcases ih others with ⟨tail, linkedTail⟩
      exact ⟨head :: tail, .cons linkedHead linkedTail⟩

theorem forall₂_linkedBy_again
    (done : List.Forall₂ (LinkedBy symbols) statements linked)
    (other : SymbolTable) : List.Forall₂ (LinkedBy other) linked linked := by
  induction done with
  | nil => exact .nil
  | cons first others ih => exact .cons (first.again other) ih

/--
A larger table makes the same of statements of which a smaller one has linked
the first ones.  The linked statements have nothing left to link, and the
original ones get the same addresses.
-/
theorem linkAll_resumed
    (done : List.Forall₂ (LinkedBy symbols) statements linked)
    {larger : SymbolTable} (more : larger.Extends symbols) (source : String)
    (rest : List Statement) :
    linkAll source larger (linked ++ rest) =
      linkAll source larger (statements ++ rest) := by
  rw [linkAll_append (forall₂_linkedBy_again done larger),
    linkAll_append (done.imp fun _ _ first => first.mono more)]

theorem sameFrame_linkAll (source : String) (symbols : SymbolTable)
    (statements : List Statement) :
    List.Forall₂ SameFrame statements
      (linkAll source symbols statements).1 := by
  induction statements with
  | nil => exact .nil
  | cons statement rest ih =>
      unfold linkAll
      split
      case h_1 => exact List.forall₂_same.mpr fun kept _ => .refl kept
      case h_2 head done =>
        exact .cons (link_eq_ok_iff_linkedBy.mp done).sameFrame ih

end Lists

/--
Linking replaces the awaited labels up to the first that the table does not
have, and fails there with that label and statement.  If there is none, the
statements are linked for every table.  Otherwise a larger table makes the same
of the partly linked statements as of the original ones.
-/
theorem linkAll_resumable (source : String) (symbols : SymbolTable)
    (statements : List Statement) :
    ((∀ statement ∈ statements, ¬ statement.Stops symbols) →
      ∃ linked, linkAll source symbols statements = (linked, none) ∧
        List.Forall₂ (LinkedBy symbols) statements linked ∧
        ∀ again other, linkAll again other linked = (linked, none)) ∧
    (∀ before stop after label, statements = before ++ stop :: after →
      (∀ statement ∈ before, ¬ statement.Stops symbols) →
      stop.Awaits label → symbols.lookup label = none →
      ∃ linked failure,
        linkAll source symbols statements =
          (linked ++ stop :: after, some failure) ∧
        List.Forall₂ (LinkedBy symbols) before linked ∧
        failure.diagnostic =
          { kind := .linking
            message := "label was never declared"
            line := stop.line.number
            text := stop.line.text
            source := source
            label := label } ∧
        ∀ again larger, SymbolTable.Extends larger symbols →
          linkAll again larger (linked ++ stop :: after) =
            linkAll again larger statements) ∧
    List.Forall₂ SameFrame statements
      (linkAll source symbols statements).1 := by
  refine ⟨?_, ?_, sameFrame_linkAll source symbols statements⟩
  · intro passes
    rcases exists_forall₂_linkedBy passes with ⟨linked, done⟩
    refine ⟨linked, linkAll_of_linkedBy done source, done, ?_⟩
    intro again other
    exact linkAll_of_linkedBy (forall₂_linkedBy_again done other) again
  · rintro before stop after label rfl passes awaits unbound
    rcases exists_forall₂_linkedBy passes with ⟨linked, done⟩
    refine ⟨linked, _, linkAll_of_stop done awaits unbound source after,
      done, rfl, ?_⟩
    intro again larger more
    exact linkAll_resumed done more again (stop :: after)

/--
Branches to two labels, and a branch to a register whose number slot names a
label.
-/
def forwardCode : List Statement :=
  [⟨0x600, ⟨3, "BCH LOOP"⟩,
    { opcode := 17, shape := .immediate, immediate := .ofLabel "LOOP" }⟩,
    ⟨0x601, ⟨4, "BCH R2"⟩, { opcode := 17, immediate := .ofLabel "END" }⟩,
    ⟨0x602, ⟨5, "BCH END"⟩,
      { opcode := 17, shape := .immediate, immediate := .ofLabel "END" }⟩,
      ⟨0x603, ⟨6, "BCH LOOP"⟩,
        { opcode := 17, shape := .immediate, immediate := .ofLabel "LOOP" }⟩]

theorem linkAll_resumable_forwardCode :
    ∃ table larger linked failure final,
      SymbolTable.empty.define "LOOP" 0xFFFFFFFF = .ok table ∧
      table.define "END" 0x700 = .ok larger ∧
      linkAll "loop" table forwardCode =
        (linked ++ forwardCode.drop 2, some failure) ∧
      failure.diagnostic.line = 5 ∧ failure.diagnostic.label = "END" ∧
      linkAll "loop" larger (linked ++ forwardCode.drop 2) =
        linkAll "loop" larger forwardCode ∧
      linkAll "loop" larger forwardCode = (final, none) ∧
      linkAll "again" .empty final = (final, none) := by
  have defined : SymbolTable.define ⟨[("LOOP", 0xFFFFFFFF)]⟩ "END" 0x700 =
      .ok ⟨[("LOOP", 0xFFFFFFFF), ("END", 0x700)]⟩ := by decide
  rcases (linkAll_resumable "loop" ⟨[("LOOP", 0xFFFFFFFF)]⟩ forwardCode).2.1
    (forwardCode.take 2) _ (forwardCode.drop 3) "END" rfl (by decide)
    ⟨rfl, rfl, rfl, by decide⟩ (by decide) with
      ⟨linked, failure, stopped, -, shown, resumed⟩
  rcases (linkAll_resumable "loop" ⟨[("LOOP", 0xFFFFFFFF), ("END", 0x700)]⟩
    forwardCode).1 (by decide) with ⟨final, finished, -, same⟩
  exact ⟨_, _, linked, failure, final, by decide, defined, stopped,
    by rw [shown], by
    rw [shown], resumed "loop" _ (SymbolTable.extends_of_define defined),
    finished, same "again" .empty⟩

end Statement

end Asm24.Assembly
