import Asm24.Proofs.Addresses
import Asm24.Proofs.Failure

/-!
# The layout of read-only data

The allocations of a program are those of the directives in its last block of
data, one for each and in their order.  They fill the region from its base on:
the first starts at the base, each of the others starts where the one before it
ends, and the last ends within the region.  So every address in use belongs to
one allocation only, and no address between two of them is left out.

`Packed` follows the counter of the reading pass; `Tiles` says the same of the
list of allocations alone, without a counter.
-/

namespace Asm24.Assembly

open Asm24.Machine
open Asm24.Proofs

/--
An address among the words of an allocation; their end is not taken in 32 bits.
-/
def Allocation.Covers (allocation : Allocation) (address : Address) : Prop :=
  allocation.address.toNat ≤ address.toNat ∧
    address.toNat < allocation.address.toNat + allocation.size.toNat

/-- The words in use by allocations. -/
def wordsOf (allocations : List Allocation) : Nat :=
  (allocations.map (fun allocation => allocation.size.toNat)).sum

/-- Allocations that fill the region of read-only data from its base on. -/
structure Tiles (allocations : List Allocation) : Prop where
  first : ∀ allocation, allocations.head? = some allocation →
    allocation.offset.toNat = 0
  next : allocations.IsChain (fun allocation following =>
    following.offset.toNat = allocation.offset.toNat + allocation.size.toNat)
  last : ∀ allocation, allocations.getLast? = some allocation →
    allocation.offset.toNat + allocation.size.toNat ≤ 0x1FF
  disjoint : allocations.Pairwise (fun allocation other =>
    ∀ address, ¬ (allocation.Covers address ∧ other.Covers address))
  inside : ∀ allocation ∈ allocations, ∀ address, allocation.Covers address →
    Region.readOnly.contains address = true
  gapless : ∀ address : Address, 0x400 ≤ address.toNat →
    address.toNat < 0x400 + wordsOf allocations → ∃ allocation ∈ allocations,
      allocation.Covers address

/-! ## Packed allocations -/

namespace Packed

variable {start : Nat} {allocations : List Allocation}

theorem start_le (packed : Packed start allocations) : start ≤ 0x1FF := by
  induction allocations generalizing start with
  | nil => exact packed
  | cons allocation rest ih =>
      have end_le := ih packed.2.2
      omega

/-- Each allocation lies behind the start and ends within the region. -/
theorem bounds (packed : Packed start allocations) {allocation : Allocation}
    (member : allocation ∈ allocations) :
    allocation.address.toNat = 0x400 + allocation.offset.toNat ∧
      start ≤ allocation.offset.toNat ∧
      allocation.offset.toNat + allocation.size.toNat ≤ 0x1FF := by
  induction allocations generalizing start with
  | nil => cases member
  | cons first rest ih =>
      rcases packed with ⟨offset, address, others⟩
      rcases List.mem_cons.mp member with rfl | later
      · have end_le := start_le others
        omega
      · have inner := ih others later
        omega

theorem isChain (packed : Packed start allocations) :
    allocations.IsChain (fun allocation following =>
      following.offset.toNat =
        allocation.offset.toNat + allocation.size.toNat) := by
  induction allocations generalizing start with
  | nil => exact .nil
  | cons first rest ih =>
      rcases packed with ⟨offset, address, others⟩
      cases rest with
      | nil => exact .singleton first
      | cons second rest =>
          refine .cons_cons ?_ (ih others)
          rw [others.1, offset]

theorem pairwise_disjoint (packed : Packed start allocations) :
    allocations.Pairwise (fun allocation other =>
      ∀ address, ¬ (allocation.Covers address ∧ other.Covers address)) := by
  induction allocations generalizing start with
  | nil => exact .nil
  | cons first rest ih =>
      rcases packed with ⟨offset, address, others⟩
      refine .cons ?_ (ih others)
      rintro other member place ⟨⟨low, high⟩, ⟨otherLow, otherHigh⟩⟩
      have behind := others.bounds member
      omega

theorem exists_covers (packed : Packed start allocations) {address : Address}
    (low : 0x400 + start ≤ address.toNat)
    (high : address.toNat < 0x400 + start + wordsOf allocations) :
    ∃ allocation ∈ allocations, allocation.Covers address := by
  induction allocations generalizing start with
  | nil =>
      change address.toNat < 0x400 + start + 0 at high
      omega
  | cons first rest ih =>
      rcases packed with ⟨offset, place, others⟩
      have total :
          wordsOf (first :: rest) = first.size.toNat + wordsOf rest := by
        simp [wordsOf]
      by_cases here : address.toNat < 0x400 + start + first.size.toNat
      · exact ⟨first, List.mem_cons_self, by omega, by omega⟩
      · rcases ih others (by omega) (by omega) with ⟨allocation, member, covers⟩
        exact ⟨allocation, List.mem_cons_of_mem first member, covers⟩

end Packed

/-- Allocations that are packed from the base on tile the region. -/
theorem tiles_of_packed {allocations : List Allocation}
    (packed : Packed 0 allocations) :
    Tiles allocations := by
  constructor
  case first =>
    intro allocation isFirst
    cases allocations with
    | nil => cases isFirst
    | cons head rest =>
        cases isFirst
        exact packed.1
  case next => exact packed.isChain
  case last =>
    intro allocation isLast
    exact (packed.bounds (List.mem_of_getLast? isLast)).2.2
  case disjoint => exact packed.pairwise_disjoint
  case inside =>
    rintro allocation member address ⟨low, high⟩
    have bounds := packed.bounds member
    have base : Region.readOnly.base.toNat = 0x400 := rfl
    have finish : Region.readOnly.finish.toNat = 0x5FF := rfl
    rw [Region.contains, Bool.and_eq_true, decide_eq_true_iff,
      decide_eq_true_iff, UInt32.le_iff_toNat_le, UInt32.lt_iff_toNat_lt]
    omega
  case gapless =>
    intro address low high
    exact packed.exists_covers low high

/-! ## Allocations of a program -/

/-- A line of data and the allocation that a program keeps of it. -/
structure Allocates (line : Line) (allocation : Allocation) : Prop where
  number : allocation.line = line.number
  directive : Directive line.tokens allocation.size.toNat allocation.value

theorem allocates_of_allocationAt? {offset : Nat} {line : Line}
    {allocation : Allocation}
    (yielded : allocationAt? offset line = some allocation) :
    Allocates line allocation := by
  cases code : line.isCode with
  | false =>
      rw [allocationAt?, code] at yielded
      cases yielded
  | true =>
      rcases (allocationAt?_eq_some_iff code offset allocation).mp yielded with
        ⟨original, written, rfl⟩
      rcases Allocation.read_iff_directive.mp written with
        ⟨size, value, directive, rfl⟩
      refine ⟨rfl, ?_⟩
      rw [directive.toNat_size]
      exact directive

/--
A program keeps an allocation of each directive, and together they tile the
region.
-/
theorem allocations_of_assembleLines {source : String} {lines : List Line}
    {program : Program} (assembled : assembleLines source lines = .ok program) :
    List.Forall₂ Allocates (codeLines (lastBody .readOnly lines))
      program.allocations ∧
      Tiles program.allocations := by
  rcases (assembleLines_eq_ok_iff rfl rfl).mp assembled with
    ⟨sections, linked, words, -, laidOut, allocates, -, -, -, rfl⟩
  constructor
  · apply ((isPass_readData source).forall₂_yields allocates 0).imp
    rintro line allocation ⟨offset, yielded⟩
    exact allocates_of_allocationAt? yielded
  · apply tiles_of_packed
    apply packed_yields allocates
    rw [Nat.zero_add]
    exact laidOut.dataFits

/--
The words of a line write an allocation exactly if they are a directive, and are
refused for a fault of allocations otherwise.  The allocations of a program are
those of the directives in its last block of data, in their order and with their
lines, and fill the region from its base on.
-/
theorem data_layout :
    (∀ tokens offset allocation,
      Allocation.read tokens offset = .ok allocation ↔
      ∃ size value, Directive tokens size value ∧
        allocation = ⟨offset, UInt32.ofNat size, value, 0⟩) ∧
    (∀ tokens offset fault, Allocation.read tokens offset = .error fault →
      fault.kind = .allocations) ∧
    ∀ source lines program, assembleLines source lines = .ok program →
      List.Forall₂ Allocates (codeLines (lastBody .readOnly lines))
        program.allocations ∧
        Tiles program.allocations := by
  refine ⟨fun _ _ _ => Allocation.read_iff_directive, ?_,
    fun _ _ _ => allocations_of_assembleLines⟩
  intro tokens offset fault refused
  have kind : fault.kind ∈ [Kind.allocations] :=
    Allocation.read_failsOnly (List.mem_singleton.mpr rfl) tokens offset
      fault refused
  exact List.mem_singleton.mp kind

/-- A block of data that fills its region to the last word. -/
def fullData : List Line :=
  [⟨1, ".SECTION READ-ONLY"⟩, ⟨2, "# TABLES"⟩, ⟨3, ".ARR #0x1FD -2048"⟩,
    ⟨4, "TABLE:"⟩, ⟨5, ".INT 0b101"⟩, ⟨6, ".ARR 0c1"⟩]

theorem data_layout_full :
    Allocation.read [".ARR", "0x200"] 0 = .error .dataMemory ∧
      Fault.dataMemory.kind = .allocations ∧
      ∃ program, assembleLines "full.asm" fullData = .ok program ∧
        program.allocations =
          [⟨0, 0x1FD, -2048, 3⟩, ⟨0x1FD, 1, 5, 5⟩, ⟨0x1FE, 1, 0, 6⟩] ∧
        List.Forall₂ Allocates
          [⟨3, ".ARR #0x1FD -2048"⟩, ⟨5, ".INT 0b101"⟩, ⟨6, ".ARR 0c1"⟩]
          program.allocations ∧
        Tiles program.allocations := by
  have refused : Allocation.read [".ARR", "0x200"] 0 = .error .dataMemory := by
    rfl
  obtain ⟨program, assembled, same⟩ : ∃ program,
      assembleLines "full.asm" fullData = .ok program ∧
        program.allocations =
          [⟨0, 0x1FD, -2048, 3⟩, ⟨0x1FD, 1, 5, 5⟩, ⟨0x1FE, 1, 0, 6⟩] :=
            ⟨_, rfl, rfl⟩
  have body : codeLines (lastBody .readOnly fullData) =
      [⟨3, ".ARR #0x1FD -2048"⟩, ⟨5, ".INT 0b101"⟩, ⟨6, ".ARR 0c1"⟩] := by
        decide
  rw [← body]
  exact ⟨refused, data_layout.2.1 _ _ _ refused, program, assembled, same,
    data_layout.2.2 _ _ _ assembled⟩

end Asm24.Assembly
