import Asm24.Assembly.Program
import Asm24.Proofs.Block
import Mathlib.Logic.Relation

/-!
# Only the last blocks count

The program of a list of lines, but for the blocks it keeps, is a function of
two bodies: that of the last block of data and that of the last block of code.
`outcome_assembleLines` gives this function, for failures as well.  So two lists
of lines with the same last bodies have the same outcome.

In particular blocks of different sections may change places, and a block that
no program is made from may be emptied, filled with any text or, if a later
block overrides it, left out.  `Edit` is one such change.
-/

namespace Asm24.Assembly

open Asm24.Machine
open Asm24.Proofs

/-! ## Outcomes -/

/-- What assembling yields, without the source and its blocks. -/
structure Outcome where
  words : List Word
  statements : List Statement
  symbols : SymbolTable
  allocations : List Allocation
  sourceMap : List (Address × Int)
  deriving DecidableEq

def Program.outcome (program : Program) : Outcome where
  words := program.words
  statements := program.statements
  symbols := program.symbols
  allocations := program.allocations
  sourceMap := program.sourceMap

/-- The outcome of a block of data and a block of code. -/
def outcomeOf (source : String) (data code : List Line) :
    Except AssemblyError Outcome := do
  let (symbols, allocations) ← refuse (readData source .empty 0 data)
  let (symbols, statements) ← refuse (readCode source symbols 0 code)
  match Statement.linkAll source symbols statements with
  | (_, some failure) => .error (.refused failure)
  | (statements, none) =>
      let words ← statements.mapM (Statement.encode source)
      return {
        words, statements, symbols, allocations
        sourceMap :=
        statements.map (fun statement =>
          (statement.address, statement.line.number)) }

/--
Lines that have sections are assembled from the bodies of two blocks.  Each pass
stops both computations with one failure, or hands both the same result.
-/
theorem outcome_assembleLines {source : String} {lines : List Line}
    {sections : Sections}
    (read : Sections.ofLines source lines = .ok sections) :
    (assembleLines source lines).map Program.outcome =
      outcomeOf source (lastBody .readOnly lines)
        (lastBody .instruction lines) := by
  rw [← Sections.body_ofLines read, ← Sections.body_ofLines read]
  simp only [assembleLines, outcomeOf, read, refuse, bind, Except.bind]
  cases readData source .empty 0 (sections.body .readOnly) with
  | error failure => rfl
  | ok dataRead =>
      dsimp only
      cases readCode source dataRead.1 0 (sections.body .instruction) with
      | error failure => rfl
      | ok codeRead =>
          dsimp only
          cases Statement.linkAll source codeRead.1 codeRead.2 with
          | mk linked stopped =>
              cases stopped with
              | some failure => rfl
              | none =>
                  dsimp only
                  cases linked.mapM (Statement.encode source) <;> rfl

/-- Lines with the same last bodies have the same outcome. -/
theorem outcome_eq_of_lastBody? {source : String} {left right : List Line}
    (leftSections : ∃ sections, Sections.ofLines source left = .ok sections)
    (rightSections : ∃ sections, Sections.ofLines source right = .ok sections)
    (bodies : ∀ owner, owner ≠ .readWrite →
      lastBody? owner left = lastBody? owner right) :
    (assembleLines source left).map Program.outcome =
      (assembleLines source right).map Program.outcome := by
  rcases leftSections with ⟨_, leftRead⟩
  rcases rightSections with ⟨_, rightRead⟩
  rw [outcome_assembleLines leftRead, outcome_assembleLines rightRead]
  simp only [lastBody, bodies .readOnly (by decide),
    bodies .instruction (by decide)]

/-! ## Edits -/

/-- A change of a source that no program depends on. -/
inductive Edit : List Line → List Line → Prop where
  /-- Two blocks of different sections change places. -/
  | swap {owner other : Section} (distinct : owner ≠ other)
      (first : SourceBlock owner) (second : SourceBlock other)
      (before after : List Line) (starts : untilHeader after = []) :
      Edit (before ++ (first.lines ++ (second.lines ++ after)))
        (before ++ (second.lines ++ (first.lines ++ after)))
  /--
  A block of read-write data, or one that is overridden, gets other lines.
  -/
  | rewrite {owner : Section} (block : SourceBlock owner) (body : List Line)
      (inner : ∀ line ∈ body, line.isHeader = false) (before after : List Line)
      (starts : untilHeader after = [])
      (idle : owner = .readWrite ∨ ∃ line ∈ after, line.IsHeaderOf owner) :
      Edit (before ++ (block.lines ++ after))
        (before ++ (block.header :: body ++ after))
  /-- A block that is overridden is left out. -/
  | delete {owner : Section} (block : SourceBlock owner)
      (before after : List Line) (starts : untilHeader after = [])
      (overridden : ∃ line ∈ after, line.IsHeaderOf owner) :
      Edit (before ++ (block.lines ++ after)) (before ++ after)

/-- A block that is overridden, or is of another section, does not count. -/
theorem lastBody?_lines_append_of_idle {owner wanted : Section}
    (block : SourceBlock owner) {after : List Line}
    (starts : untilHeader after = [])
    (idle : owner ≠ wanted ∨ ∃ line ∈ after, line.IsHeaderOf owner) :
    lastBody? wanted (block.lines ++ after) = lastBody? wanted after := by
  rw [block.lastBody?_lines_append wanted starts]
  by_cases same : owner = wanted
  · subst same
    rcases exists_lastBody? (idle.resolve_left (absurd rfl)) with ⟨body, found⟩
    rw [found]
    rfl
  · rw [if_neg same, Option.or_none]

/-- An edit keeps the last bodies that count. -/
theorem Edit.lastBody?_eq {left right : List Line} (edit : Edit left right)
    {wanted : Section} (counts : wanted ≠ .readWrite) :
    lastBody? wanted left = lastBody? wanted right := by
  cases edit with
  | @swap owner other distinct first second before after starts =>
      rw [lastBody?_append wanted before (first.untilHeader_lines _),
        lastBody?_append wanted before (second.untilHeader_lines _)]
      by_cases same : owner = wanted
      · have otherNot : other ≠ wanted :=
          fun otherSame => distinct (same.trans otherSame.symm)
        rw [first.lastBody?_lines_append wanted
          (second.untilHeader_lines after),
          lastBody?_lines_append_of_idle second starts (Or.inl otherNot),
          lastBody?_lines_append_of_idle second (first.untilHeader_lines after)
            (Or.inl otherNot), first.lastBody?_lines_append wanted starts]
      · rw [lastBody?_lines_append_of_idle first
          (second.untilHeader_lines after) (Or.inl same),
          second.lastBody?_lines_append wanted starts,
          second.lastBody?_lines_append wanted (first.untilHeader_lines after),
          lastBody?_lines_append_of_idle first starts (Or.inl same)]
  | @rewrite owner block body inner before after starts idle =>
      have still : owner ≠ wanted ∨ ∃ line ∈ after, line.IsHeaderOf owner := by
        rcases idle with rfl | overridden
        · exact Or.inl (Ne.symm counts)
        · exact Or.inr overridden
      let rewritten : SourceBlock owner :=
        ⟨block.header, body, block.opens, inner⟩
      change _ = lastBody? wanted (before ++ (rewritten.lines ++ after))
      rw [lastBody?_append wanted before (block.untilHeader_lines after),
        lastBody?_append wanted before (rewritten.untilHeader_lines after),
        lastBody?_lines_append_of_idle block starts still,
        lastBody?_lines_append_of_idle rewritten starts still]
  | delete block before after starts overridden =>
      rw [lastBody?_append wanted before (block.untilHeader_lines after),
        lastBody?_append wanted before starts,
        lastBody?_lines_append_of_idle block starts (Or.inr overridden)]

/--
An edit keeps the lines in front of the first header, and leaves no header
without a section.
-/
theorem Edit.keeps_sections {left right : List Line} (edit : Edit left right) :
    untilHeader right = untilHeader left ∧
      (HeadersOpen left → HeadersOpen right) := by
  cases edit with
  | swap distinct first second before after starts =>
      constructor
      · rw [untilHeader_append before (second.untilHeader_lines _),
          untilHeader_append before (first.untilHeader_lines _)]
      · simp only [headersOpen_append_iff]
        rintro ⟨inBefore, inFirst, inSecond, inAfter⟩
        exact ⟨inBefore, inSecond, inFirst, inAfter⟩
  | @rewrite owner block body inner before after starts idle =>
      let rewritten : SourceBlock owner :=
        ⟨block.header, body, block.opens, inner⟩
      change untilHeader (before ++ (rewritten.lines ++ after)) = _ ∧
        (_ → HeadersOpen (before ++ (rewritten.lines ++ after)))
      constructor
      · rw [untilHeader_append before (rewritten.untilHeader_lines after),
          untilHeader_append before (block.untilHeader_lines after)]
      · simp only [headersOpen_append_iff]
        rintro ⟨inBefore, -, inAfter⟩
        exact ⟨inBefore, rewritten.headersOpen, inAfter⟩
  | delete block before after starts overridden =>
      constructor
      · rw [untilHeader_append before starts,
          untilHeader_append before (block.untilHeader_lines after)]
      · simp only [headersOpen_append_iff]
        rintro ⟨inBefore, -, inAfter⟩
        exact ⟨inBefore, inAfter⟩

theorem Edit.exists_ofLines {source : String} {left right : List Line}
    (edit : Edit left right)
    (read : ∃ sections, Sections.ofLines source left = .ok sections) :
    ∃ sections, Sections.ofLines source right = .ok sections := by
  rcases edit.keeps_sections with ⟨lead, headers⟩
  rw [Sections.exists_ofLines_iff] at read ⊢
  rw [lead]
  exact ⟨read.1, headers read.2⟩

/--
Any number of edits keep the last bodies that count, and that there are
sections.
-/
theorem edits_keep {source : String} {left right : List Line}
    (edits : Relation.ReflTransGen Edit left right)
    (read : ∃ sections, Sections.ofLines source left = .ok sections) :
    (∃ sections, Sections.ofLines source right = .ok sections) ∧
      ∀ wanted, wanted ≠ .readWrite →
        lastBody? wanted left = lastBody? wanted right := by
  induction edits with
  | refl => exact ⟨read, fun _ _ => rfl⟩
  | tail _ edit ih =>
      rcases ih with ⟨middle, bodies⟩
      refine ⟨edit.exists_ofLines middle, ?_⟩
      intro wanted counts
      exact (bodies wanted counts).trans (edit.lastBody?_eq counts)

/--
The outcome depends only on the bodies of the last block of data and the last
block of code.  In particular no edit changes it.
-/
theorem outcome_of_last_blocks (source : String) :
    (∀ left right : List Line,
      (∃ sections, Sections.ofLines source left = .ok sections) →
      (∃ sections, Sections.ofLines source right = .ok sections) →
      lastBody? .readOnly left = lastBody? .readOnly right →
      lastBody? .instruction left = lastBody? .instruction right →
      (assembleLines source left).map Program.outcome =
        (assembleLines source right).map Program.outcome) ∧
    ∀ left right : List Line,
      (∃ sections, Sections.ofLines source left = .ok sections) →
      Relation.ReflTransGen Edit left right →
      (assembleLines source left).map Program.outcome =
        (assembleLines source right).map Program.outcome := by
  constructor
  · intro left right leftSections rightSections data code
    apply outcome_eq_of_lastBody? leftSections rightSections
    intro owner counts
    cases owner with
    | readOnly => exact data
    | readWrite => exact absurd rfl counts
    | instruction => exact code
  · intro left right read edits
    rcases edits_keep edits read with ⟨rightSections, bodies⟩
    exact outcome_eq_of_lastBody? read rightSections bodies

/-- Lines with text in two blocks that nothing is made from. -/
def crowdedLines : List Line :=
  [⟨1, ".SECTION READ-ONLY"⟩, ⟨2, "NO DIRECTIVE"⟩, ⟨3, ".SECTION INSTRUCTION"⟩,
    ⟨4, "BAL END"⟩, ⟨5, ".SECTION READ-WRITE"⟩, ⟨6, "END:"⟩,
    ⟨7, ".SECTION READ-ONLY"⟩, ⟨8, "END:"⟩]

theorem edits_crowdedLines :
    Relation.ReflTransGen Edit crowdedLines
      [⟨5, ".SECTION READ-WRITE"⟩, ⟨3, ".SECTION INSTRUCTION"⟩, ⟨4, "BAL END"⟩,
        ⟨7, ".SECTION READ-ONLY"⟩, ⟨8, "END:"⟩] := by
  let data : SourceBlock .readOnly :=
    ⟨⟨1, ".SECTION READ-ONLY"⟩, [⟨2, "NO DIRECTIVE"⟩], by decide, by decide⟩
  let code : SourceBlock .instruction :=
    ⟨⟨3, ".SECTION INSTRUCTION"⟩, [⟨4, "BAL END"⟩], by decide, by decide⟩
  let idle : SourceBlock .readWrite :=
    ⟨⟨5, ".SECTION READ-WRITE"⟩, [⟨6, "END:"⟩], by decide, by decide⟩
  let emptied : SourceBlock .readWrite :=
    ⟨idle.header, [], idle.opens, by decide⟩
  let last : List Line := [⟨7, ".SECTION READ-ONLY"⟩, ⟨8, "END:"⟩]
  have starts : untilHeader last = [] := by decide
  have deleted :=
    Edit.delete data [] (code.lines ++ (idle.lines ++ last)) (by decide)
      (by decide)
  have rewritten :=
    Edit.rewrite idle [] (by decide) code.lines last starts (Or.inl rfl)
  have swapped := Edit.swap (by decide) code emptied [] last starts
  exact ((Relation.ReflTransGen.single deleted).tail rewritten).tail swapped

/--
Blocks may be edited, or left out altogether if nothing is made from them.
-/
theorem outcome_of_crowdedLines :
    (assembleLines "loop.asm" crowdedLines).map (·.words) = .ok [0x944000] ∧
    (assembleLines "loop.asm" crowdedLines).map Program.outcome =
      (assembleLines "loop.asm"
        [⟨7, ".SECTION READ-ONLY"⟩, ⟨8, "END:"⟩, ⟨3, ".SECTION INSTRUCTION"⟩,
          ⟨4, "BAL END"⟩]).map Program.outcome ∧
    (assembleLines "loop.asm" crowdedLines).map Program.outcome =
      (assembleLines "loop.asm"
        [⟨5, ".SECTION READ-WRITE"⟩, ⟨3, ".SECTION INSTRUCTION"⟩,
          ⟨4, "BAL END"⟩, ⟨7, ".SECTION READ-ONLY"⟩, ⟨8, "END:"⟩]).map
            Program.outcome := by
  refine ⟨rfl, ?_, ?_⟩
  · exact (outcome_of_last_blocks "loop.asm").1 _ _ ⟨_, rfl⟩ ⟨_, rfl⟩
      (by decide) (by decide)
  · exact (outcome_of_last_blocks "loop.asm").2 _ _ ⟨_, rfl⟩ edits_crowdedLines

end Asm24.Assembly
