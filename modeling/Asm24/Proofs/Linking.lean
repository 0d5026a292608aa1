import Asm24.Assembly.Program
import Asm24.Proofs.Layout
import Asm24.Proofs.Word

/-!
# Linking and encoding statements

Linking replaces the label operand of a statement by the address that the symbol
table gives it, and succeeds exactly if the table has every label operand.
Encoding a statement decodes the word again and compares; since decoding inverts
encoding, the comparison never fails and a statement has a word exactly if its
instruction does.
-/

namespace Asm24.Assembly

open Asm24.Machine
open Asm24.Proofs

namespace Statement

/--
Linking a statement replaces its label operand, if it has one, by the address of
the label.
-/
theorem link_eq_ok_iff {source : String} {symbols : SymbolTable}
    {statement linked : Statement} :
    statement.link source symbols = .ok linked ↔
      (statement.pending? = none ∧ statement = linked) ∨
        ∃ label address, statement.pending? = some label ∧
          symbols.lookup label = some address ∧
          statement.resolve address = linked := by
  unfold link
  cases pending : statement.pending? with
  | none => simp
  | some label =>
      cases found : symbols.lookup label with
      | none => simp [found]
      | some address => simp [found]

/-- A statement can be linked exactly if the table has its label operand. -/
theorem exists_link_iff {source : String} {symbols : SymbolTable}
    {statement : Statement} :
    (∃ linked, statement.link source symbols = .ok linked) ↔
      ∀ label, statement.pending? = some label → label ∈ symbols.names := by
  constructor
  · rintro ⟨linked, done⟩ label pending
    rcases link_eq_ok_iff.mp done with
      ⟨none, -⟩ | ⟨found, address, pending', lookup, -⟩
    · rw [none] at pending
      cases pending
    · rw [pending'] at pending
      cases pending
      exact SymbolTable.exists_lookup_iff.mp ⟨address, lookup⟩
  · intro known
    cases pending : statement.pending? with
    | none => exact ⟨statement, link_eq_ok_iff.mpr (Or.inl ⟨pending, rfl⟩)⟩
    | some label =>
        obtain ⟨address, lookup⟩ :=
          SymbolTable.exists_lookup_iff.mpr (known label pending)
        exact ⟨_,
          link_eq_ok_iff.mpr (Or.inr ⟨label, address, pending, lookup, rfl⟩)⟩

/-- Linking goes through if every statement can be linked. -/
theorem linkAll_eq_iff {source : String} {symbols : SymbolTable}
    {statements linked : List Statement} :
    linkAll source symbols statements = (linked, none) ↔
      statements.map (link source symbols) = linked.map .ok := by
  induction statements generalizing linked with
  | nil => cases linked <;> simp [linkAll]
  | cons statement rest ih =>
      unfold linkAll
      cases first : statement.link source symbols with
      | error failure => cases linked <;> simp [first]
      | ok head =>
          cases linked with
          | nil => simp [first]
          | cons other others =>
              simp only [List.map_cons, first, List.cons.injEq,
                Except.ok.injEq, ← ih, Prod.mk.injEq, and_assoc]
              rw [Prod.ext_iff]

/-- The comparison after encoding never fails. -/
theorem encode_eq_ok_iff {source : String} {statement : Statement}
    {word : Word} :
    statement.encode source = .ok word ↔
      statement.instruction.encode = .ok word := by
  unfold Statement.encode
  cases encoded : statement.instruction.encode with
  | error cause => simp
  | ok found =>
      have decoded := (Instruction.decode_of_encode encoded).2
      simp [decoded]

end Statement

end Asm24.Assembly
