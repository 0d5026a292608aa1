import Asm24.Proofs.LastBlocks
import Asm24.Proofs.Program
import Asm24.Proofs.Steps

/-!
# Blank lines and comments

A blank line or a comment may be put anywhere in a list of lines.  The assembler
meets such a line in several places: in front of the first header it is passed
over, behind a header it becomes a part of the block, and in a pass it leaves
the state as it is.  So the outcome is the same, and so is the failure if there
is one; only a block that is kept holds one line more.
-/

namespace Asm24.Assembly

open Asm24.Machine
open Asm24.Proofs

/-! ## What a line without code is read as -/

theorem isLabelLine_of_inert {text : List Char}
    (inert : Token.isBlankLine text = true ∨ Token.isComment text = true) :
    Token.isLabelLine text = false := by
  rw [Bool.eq_false_iff]
  intro label
  rw [Token.isLabelLine, Bool.and_eq_true, beq_iff_eq] at label
  rcases label with ⟨colon, isName⟩
  rcases inert with blank | comment
  · have visible := List.all_eq_true.mp blank ':' (List.mem_of_getLast? colon)
    revert visible
    decide
  · unfold Token.isComment at comment
    split at comment
    case h_1 rest =>
      cases rest with
      | nil => cases isName
      | cons => cases isName
    case h_2 rest => cases isName
    case h_3 => cases comment

namespace Line

variable {line : Line}

theorem content_eq_inert_iff : line.content = .inert ↔ line.isInert = true := by
  rw [isInert_iff]
  constructor
  · intro inert
    unfold content at inert
    dsimp only at inert
    split at inert
    case isTrue => cases inert
    case isFalse =>
      split at inert
      case isTrue either => rwa [Bool.or_eq_true] at either
      case isFalse => cases inert
  · intro inert
    simp [content, isLabelLine_of_inert inert, inert]

/-- The first word of a comment starts with a sign. -/
theorem exists_sign_of_isComment
    (comment : Token.isComment line.text.toList = true) :
    ∃ sign piece others, line.tokens = String.ofList (sign :: piece) :: others ∧
      (sign = '#' ∨ sign = '/') := by
  have first : ∃ sign rest, line.text.toList = sign :: rest ∧
      Text.isBlank sign = false ∧
      (sign = '#' ∨ sign = '/') := by
    unfold Token.isComment at comment
    split at comment
    case h_1 rest same => exact ⟨'#', rest, same, by decide, Or.inl rfl⟩
    case h_2 rest same => exact ⟨'/', '/' :: rest, same, by decide, Or.inr rfl⟩
    case h_3 => cases comment
  rcases first with ⟨sign, rest, same, visible, isSign⟩
  rcases Text.exists_words_cons visible rest with ⟨piece, others, words⟩
  refine ⟨sign, piece, others.map String.ofList, ?_, isSign⟩
  rw [tokens, same, words, List.map_cons]

theorem isHeader_of_isInert (inert : line.isInert = true) :
    line.isHeader = false := by
  rw [isInert, Bool.or_eq_true, List.isEmpty_iff] at inert
  rcases inert with none | comment
  · rw [isHeader, none]
    rfl
  · rcases exists_sign_of_isComment comment with
      ⟨sign, piece, others, words, isSign⟩
    rw [isHeader, words, beq_eq_false_iff_ne]
    intro header
    have directive : sign :: piece = ".SECTION".toList := by
      rw [← Option.some.inj header, String.toList_ofList]
    obtain rfl := (List.cons.inj directive).1
    revert isSign
    decide

end Line

/-! ## Blocks -/

/--
What is carved from lines, in front of the first header and in blocks, before
and after a line is put somewhere into it.
-/
inductive CarvedWith (added : Line) :
    List Line × List Block → List Line × List Block → Prop where
  | lead (front back : List Line) (blocks : List Block) :
      CarvedWith added (front ++ back, blocks) (front ++ added :: back, blocks)
  | block (lead : List Line) (earlier : List Block) (block : Block)
      (later : List Block) (front back : List Line)
      (lines : block.lines = front ++ back) :
      CarvedWith added (lead, earlier ++ block :: later)
        (lead, earlier ++ { block with
          lines := front ++ added :: back } :: later)

namespace CarvedWith

variable {added : Line} {lead moreLead : List Line}
  {blocks moreBlocks : List Block}
  (gains : CarvedWith added (lead, blocks) (moreLead, moreBlocks))

include gains

theorem cons_line (line : Line) :
    CarvedWith added (line :: lead, blocks) (line :: moreLead, moreBlocks) := by
  cases gains with
  | lead front back => exact .lead (line :: front) back blocks
  | block _ earlier block later front back lines =>
      exact .block (line :: lead) earlier block later front back lines

theorem cons_header (owner : Section) (number : Int) :
    CarvedWith added ([], ⟨owner, number, lead⟩ :: blocks)
      ([], ⟨owner, number, moreLead⟩ :: moreBlocks) := by
  cases gains with
  | lead front back =>
      exact .block [] [] ⟨owner, number, front ++ back⟩ blocks front back rfl
  | block _ earlier block later front back lines =>
      exact .block [] (⟨owner, number, lead⟩ :: earlier) block later front
        back lines

end CarvedWith

/--
A line that is no header is carved into the block that it stands in, and into no
other.
-/
theorem Block.carve_insert {added : Line} (inner : added.isHeader = false)
    (source : String) (before after : List Line) :
    Related Eq (CarvedWith added) (carve source (before ++ after))
      (carve source (before ++ added :: after)) := by
  induction before with
  | nil =>
      rw [List.nil_append, List.nil_append,
        carve_cons_of_not_header (Bool.not_eq_true _ ▸ inner)]
      cases carve source after with
      | error failure => exact .error rfl
      | ok carved => exact .ok (.lead [] carved.1 carved.2)
  | cons line rest ih =>
      rw [List.cons_append, List.cons_append, carve, carve]
      by_cases header : line.isHeader = true
      · rw [if_pos header, if_pos header]
        cases locate source line line.opens with
        | error failure => exact .error rfl
        | ok owner =>
            apply Related.bind ih
            rintro ⟨lead, blocks⟩ ⟨moreLead, moreBlocks⟩ gains
            exact .ok (gains.cons_header owner line.number)
      · rw [if_neg header, if_neg header]
        apply Related.bind ih
        rintro ⟨lead, blocks⟩ ⟨moreLead, moreBlocks⟩ gains
        exact .ok (gains.cons_line line)

theorem Block.stray?_insert {added : Line} (inert : added.isInert = true)
    (before after : List Line) :
    stray? (before ++ added :: after) = stray? (before ++ after) := by
  induction before with
  | nil => simp [stray?, Line.isHeader_of_isInert inert, inert]
  | cons line rest ih =>
      unfold stray? at ih ⊢
      rw [List.cons_append, List.cons_append, List.takeWhile_cons,
        List.takeWhile_cons]
      cases line.isHeader with
      | true => rfl
      | false =>
          simp only [Bool.not_false, if_true, List.find?_cons]
          rw [ih]

/-! ## Sections -/

/-- The sections are the same, or one of them has one more line in its body. -/
def Sections.Gains (added : Line) (sections more : Sections) : Prop :=
  more = sections ∨
    ∃ owner block front back, block.lines = front ++ back ∧
      sections.get? owner = some block ∧
      more.get? owner = some { block with lines := front ++ added :: back } ∧
      ∀ other, other ≠ owner → more.get? other = sections.get? other

namespace Sections

theorem lastBlock?_append_cons (owner : Section) (earlier : List Block)
    (block : Block) (later : List Block) :
    lastBlock? owner (earlier ++ block :: later) =
      ((lastBlock? owner later).or (if block.owner = owner then
        some block else none)).or
        (lastBlock? owner earlier) := by
  induction earlier with
  | nil => rw [List.nil_append, lastBlock?_cons]; simp [lastBlock?]
  | cons first rest ih =>
      rw [List.cons_append, lastBlock?_cons, ih, Option.or_assoc,
        ← lastBlock?_cons owner first]

/--
A line that a block has gained is gained by its section, unless the block is
overridden.
-/
theorem gains_ofBlocks {added : Line} {lead moreLead : List Line}
    {blocks moreBlocks : List Block}
    (gains : CarvedWith added (lead, blocks) (moreLead, moreBlocks)) :
    (ofBlocks blocks).Gains added (ofBlocks moreBlocks) := by
  cases gains with
  | lead => exact Or.inl rfl
  | block _ earlier block later front back lines =>
      have others (other : Section) (distinct : block.owner ≠ other) :
          lastBlock? other
              (earlier ++ { block with
                lines := front ++ added :: back } :: later) =
            lastBlock? other (earlier ++ block :: later) := by
        rw [lastBlock?_append_cons, lastBlock?_append_cons, if_neg distinct,
          if_neg distinct]
      cases overrides : lastBlock? block.owner later with
      | some last =>
          left
          have same (owner : Section) :
              lastBlock? owner
                  (earlier ++ { block with
                    lines := front ++ added :: back } :: later) =
                lastBlock? owner (earlier ++ block :: later) := by
            by_cases own : block.owner = owner
            · rw [← own, lastBlock?_append_cons, lastBlock?_append_cons,
                overrides]
              rfl
            · exact others owner own
          rw [ofBlocks, ofBlocks, same, same, same]
      | none =>
          right
          refine ⟨block.owner, block, front, back, lines, ?_, ?_, ?_⟩
          · rw [get?_ofBlocks, lastBlock?_append_cons, overrides, if_pos rfl]
            rfl
          · rw [get?_ofBlocks, lastBlock?_append_cons, overrides, if_pos rfl]
            rfl
          · intro other distinct
            rw [get?_ofBlocks, get?_ofBlocks, others other (Ne.symm distinct)]

theorem ofLines_insert {added : Line} (inert : added.isInert = true)
    (source : String) (before after : List Line) :
    Related Eq (Gains added) (ofLines source (before ++ after))
      (ofLines source (before ++ added :: after)) := by
  have sameStray := Block.stray?_insert inert before after
  cases stray : Block.stray? (before ++ after) with
  | some line =>
      rw [ofLines_of_stray stray, ofLines_of_stray (sameStray.trans stray)]
      exact .error rfl
  | none =>
      rw [ofLines_of_no_stray stray,
        ofLines_of_no_stray (sameStray.trans stray)]
      apply Related.map (Block.carve_insert (Line.isHeader_of_isInert inert)
        source before after)
      rintro ⟨lead, blocks⟩ ⟨moreLead, moreBlocks⟩ gains
      exact gains_ofBlocks gains

/-- Only the body of one section is longer, if any is. -/
theorem Gains.body {added : Line} {sections more : Sections}
    (gains : sections.Gains added more) (owner : Section) :
    more.body owner = sections.body owner ∨
      ∃ front back, sections.body owner = front ++ back ∧
        more.body owner = front ++ added :: back := by
  rcases gains with
    rfl | ⟨opened, block, front, back, lines, found, foundMore, others⟩
  · exact Or.inl rfl
  · by_cases own : owner = opened
    · right
      refine ⟨front, back, ?_, ?_⟩
      · rw [Sections.body, own, found]
        exact lines
      · rw [Sections.body, own, foundMore]
    · left
      rw [Sections.body, others owner own, Sections.body]

end Sections

/-! ## Passes -/

theorem runPass_insert {item : Type} {base : Address} {source : String}
    {read : CodeReader item} {added : Line} (inert : added.isInert = true)
    (symbols : SymbolTable) (used : UInt32) (before after : List Line) :
    runPass base source read symbols used (before ++ added :: after) =
      runPass base source read symbols used (before ++ after) := by
  rw [runPass, runPass, List.foldlM_append, List.foldlM_append]
  congr 2
  funext state
  rw [List.foldlM_cons, passStep_of_inert (Line.content_eq_inert_iff.mpr inert)]
  rfl

/--
A pass over the body of a section does not see the line that the section has
gained.
-/
theorem Sections.Gains.runPass_body {item : Type} {base : Address}
    {source : String} {read : CodeReader item} {added : Line}
    (inert : added.isInert = true) {sections more : Sections}
    (gains : sections.Gains added more) (symbols : SymbolTable) (used : UInt32)
    (owner : Section) :
    runPass base source read symbols used (more.body owner) =
      runPass base source read symbols used (sections.body owner) := by
  rcases gains.body owner with same | ⟨front, back, shorter, longer⟩
  · rw [same]
  · rw [shorter, longer, runPass_insert inert]

/-! ## Programs -/

theorem Sections.Gains.outcomeOf_body {added : Line}
    (inert : added.isInert = true) {sections more : Sections}
    (gains : sections.Gains added more) (source : String) :
    outcomeOf source (more.body .readOnly) (more.body .instruction) =
      outcomeOf source (sections.body .readOnly)
        (sections.body .instruction) := by
  unfold outcomeOf
  simp only [readData_eq_run, readCode_eq_run, gains.runPass_body inert]

/-- Programs that differ at most by one line in the sections that they keep. -/
structure Program.SameButFor (added : Line) (program more : Program) :
    Prop where
  source : more.source = program.source
  outcome : more.outcome = program.outcome
  sections : program.sections.Gains added more.sections

/-- A program keeps its source and the sections that its lines have. -/
theorem kept_of_assembleLines {source : String} {lines : List Line}
    {program : Program} (assembled : assembleLines source lines = .ok program) :
    program.source = source ∧
      Sections.ofLines source lines = .ok program.sections := by
  rcases (assembleLines_eq_ok_iff rfl rfl).mp assembled with
    ⟨sections, linked, words, read, -, -, -, -, -, rfl⟩
  exact ⟨rfl, read⟩

/--
A line that is blank or a comment may be inserted anywhere, with any number.
The outcome or the error is the same, and the sections that are kept are the
same but for the line.
-/
theorem assembleLines_insert_inert {added : Line}
    (inert : Token.isBlankLine added.text.toList = true ∨
      Token.isComment added.text.toList = true)
    (source : String) (before after : List Line) :
    Related Eq (Program.SameButFor added)
      (assembleLines source (before ++ after))
      (assembleLines source (before ++ added :: after)) := by
  rw [← Line.isInert_iff] at inert
  have gained := Sections.ofLines_insert inert source before after
  cases read : Sections.ofLines source (before ++ after) with
  | error failure =>
      rcases gained.exists_error read with ⟨_, readMore, rfl⟩
      rw [assembleLines, assembleLines, read, readMore]
      exact .error rfl
  | ok sections =>
      rcases gained.exists_ok read with ⟨more, readMore, gains⟩
      have outcomes :
          (assembleLines source (before ++ after)).map Program.outcome =
          (assembleLines source (before ++ added :: after)).map
            Program.outcome := by
        rw [outcome_assembleLines read, outcome_assembleLines readMore]
        simp only [← Sections.body_ofLines read,
          ← Sections.body_ofLines readMore]
        exact (gains.outcomeOf_body inert source).symm
      apply (Related.of_map_eq outcomes).imp
      intro program extended assembled assembledMore same
      rcases kept_of_assembleLines assembled with ⟨isSource, kept⟩
      rcases kept_of_assembleLines assembledMore with ⟨isSourceMore, keptMore⟩
      rw [read] at kept
      rw [readMore] at keptMore
      cases kept
      cases keptMore
      exact ⟨isSourceMore.trans isSource.symm, same.symm, gains⟩

/--
A note with a number that is out of order, between a reference and its label.
-/
theorem assembleLines_insert_note :
    Token.isComment "// NOTE".toList = true ∧
    (assembleLines "loop.asm"
      ([⟨1, ".SECTION INSTRUCTION"⟩, ⟨2, "BAL END"⟩] ++ [⟨3, "END:"⟩])).map
      (·.words) =
        .ok [0x946010] ∧
    Related Eq (Program.SameButFor ⟨7, "// NOTE"⟩)
      (assembleLines "loop.asm"
        ([⟨1, ".SECTION INSTRUCTION"⟩, ⟨2, "BAL END"⟩] ++ [⟨3, "END:"⟩]))
      (assembleLines "loop.asm"
        ([⟨1, ".SECTION INSTRUCTION"⟩, ⟨2, "BAL END"⟩] ++ ⟨7, "// NOTE"⟩ ::
          [⟨3, "END:"⟩])) :=
  ⟨by decide, rfl, assembleLines_insert_inert (Or.inr (by decide)) _ _ _⟩

end Asm24.Assembly
