import Asm24.Assembly.Block
import Asm24.Proofs.Success
import Asm24.Proofs.Words
import Mathlib.Data.List.TakeWhile

/-!
# The last block of a section

A list of lines has sections exactly if the lines before its first header are
blank or comments and every header opens a section.  What counts of a section is
then the body of its last block, which `lastBody?` defines on the lines
themselves: the lines between the last header that opens the section and the
next header of any section.

The main statements are `exists_ofLines_iff`, which says when a list of lines
has sections, and `body_ofLines`, which says what the bodies of its sections
are.
-/

namespace Asm24.Assembly

open Asm24.Proofs

/--
A result with a position attached to its fault is a value exactly if the result
is.
-/
theorem locate_eq_ok_iff {result : Type} {source : String} {line : Line}
    {outcome : Except Fault result} {value : result} :
    locate source line outcome = .ok value ↔ outcome = .ok value := by
  cases outcome <;> simp

/-! ## Headers -/

theorem Section.ofName?_eq_some_iff {name : String} {owner : Section} :
    Section.ofName? name = some owner ↔ name = owner.name := by
  unfold Section.ofName?
  split
  case isTrue isReadOnly => cases owner <;> simp [Section.name, isReadOnly]
  case isFalse notReadOnly =>
    split
    case isTrue isReadWrite => cases owner <;> simp [Section.name, isReadWrite]
    case isFalse notReadWrite =>
      split
      case isTrue isInstruction => cases owner <;>
        simp [Section.name, isInstruction]
      case isFalse notInstruction =>
        cases owner <;>
          simp [Section.name, notReadOnly, notReadWrite, notInstruction]

/--
A line is the header of a section if it holds the directive and the identifier
only.
-/
def Line.IsHeaderOf (line : Line) (owner : Section) : Prop :=
  line.tokens = [".SECTION", owner.name]

instance (line : Line) (owner : Section) : Decidable (line.IsHeaderOf owner) :=
  inferInstanceAs (Decidable (line.tokens = _))

theorem Line.IsHeaderOf.isHeader {line : Line} {owner : Section}
    (header : line.IsHeaderOf owner) :
    line.isHeader = true := by
  simp only [Line.IsHeaderOf] at header
  simp [Line.isHeader, header]

/-- A line is the header of one section only. -/
theorem Line.IsHeaderOf.owner_eq {line : Line} {owner other : Section}
    (header : line.IsHeaderOf owner) (otherHeader : line.IsHeaderOf other) :
    owner = other := by
  unfold Line.IsHeaderOf at header otherHeader
  rw [header] at otherHeader
  have names : owner.name = other.name := by simpa using otherHeader
  have found := Section.ofName?_eq_some_iff.mpr names
  rw [Section.ofName?_eq_some_iff.mpr rfl] at found
  exact Option.some.inj found

/-- Opening a header succeeds exactly if it is the header of a section. -/
theorem Line.opens_eq_ok_iff {line : Line} {owner : Section}
    (header : line.isHeader = true) :
    line.opens = .ok owner ↔ line.IsHeaderOf owner := by
  constructor
  · intro opened
    unfold Line.opens at opened
    split at opened
    case h_1 directive name tokens =>
      have isDirective : directive = ".SECTION" := by
        simpa [Line.isHeader, tokens] using header
      split at opened
      case h_1 found =>
        rw [Section.ofName?_eq_some_iff] at found
        cases opened
        rw [Line.IsHeaderOf, tokens, isDirective, found]
      case h_2 => cases opened
    case h_2 => cases opened
  · intro isHeader
    unfold Line.IsHeaderOf at isHeader
    have found :=
      Section.ofName?_eq_some_iff.mpr (rfl : owner.name = owner.name)
    simp [Line.opens, isHeader, found]

/--
A line may stand before the first header exactly if it is blank or a comment.
-/
theorem Line.isInert_iff (line : Line) :
    line.isInert = true ↔
      Token.isBlankLine line.text.toList = true ∨
        Token.isComment line.text.toList = true := by
  unfold Line.isInert Line.tokens Token.isBlankLine
  rw [Bool.or_eq_true, List.isEmpty_iff, List.map_eq_nil_iff,
    Text.words_eq_nil_iff]

/-! ## Bodies -/

/-- The lines of a list up to its first header. -/
def untilHeader (lines : List Line) : List Line :=
  lines.takeWhile (fun line => !line.isHeader)

theorem untilHeader_cons_of_header {line : Line} (header : line.isHeader = true)
    (rest : List Line) : untilHeader (line :: rest) = [] := by
  simp [untilHeader, header]

theorem untilHeader_cons_of_not_header {line : Line}
    (inner : ¬ line.isHeader = true) (rest : List Line) :
    untilHeader (line :: rest) = line :: untilHeader rest := by
  simp [untilHeader, inner]

/--
The body of the last block of a section: the lines from after the last header of
the section up to the next header.
-/
def lastBody? (owner : Section) : List Line → Option (List Line)
  | [] => none
  | line :: rest =>
      (lastBody? owner rest).or
        (if line.IsHeaderOf owner then some (untilHeader rest) else none)

/--
The body of the last block of a section, without lines if the section is never
opened.
-/
def lastBody (owner : Section) (lines : List Line) : List Line :=
  (lastBody? owner lines).getD []

/-- Lines without a header have no block. -/
theorem lastBody?_eq_none {lines : List Line}
    (inner : ∀ line ∈ lines, line.isHeader = false) (owner : Section) :
    lastBody? owner lines = none := by
  induction lines with
  | nil => rfl
  | cons line rest ih =>
      obtain ⟨first, others⟩ := List.forall_mem_cons.mp inner
      have notHeader : ¬ line.IsHeaderOf owner := by
        intro header
        rw [header.isHeader] at first
        cases first
      rw [lastBody?, ih others, if_neg notHeader]
      rfl

/-- A single block has the lines after its header. -/
theorem lastBody?_cons_of_header {header : Line} {owner : Section}
    {body : List Line} (opens : header.IsHeaderOf owner)
    (inner : ∀ line ∈ body, line.isHeader = false) (wanted : Section) :
    lastBody? wanted (header :: body) = if owner = wanted then some body
      else none := by
  have whole : untilHeader body = body := by
    rw [untilHeader, List.takeWhile_eq_self_iff]
    simpa using inner
  rw [lastBody?, lastBody?_eq_none inner]
  by_cases same : owner = wanted
  · subst same
    simp [opens, whole]
  · have notHeader : ¬ header.IsHeaderOf wanted := by
      intro other
      exact same (opens.owner_eq other)
    simp [notHeader, same]

theorem lastBody_cons_of_header {header : Line} {owner : Section}
    {body : List Line} (opens : header.IsHeaderOf owner)
    (inner : ∀ line ∈ body, line.isHeader = false) (wanted : Section) :
    lastBody wanted (header :: body) = if owner = wanted then body else [] := by
  rw [lastBody, lastBody?_cons_of_header opens inner]
  split <;> rfl

/-- A section that has a header has a body. -/
theorem exists_lastBody? {owner : Section} {lines : List Line}
    (opened : ∃ line ∈ lines, line.IsHeaderOf owner) :
    ∃ body, lastBody? owner lines = some body := by
  induction lines with
  | nil => simp at opened
  | cons line rest ih =>
      rw [lastBody?]
      rcases opened with ⟨header, member, isHeader⟩
      rcases List.mem_cons.mp member with rfl | later
      · cases lastBody? owner rest <;> simp [isHeader]
      · rcases ih ⟨header, later, isHeader⟩ with ⟨body, found⟩
        exact ⟨body, by rw [found]; rfl⟩

/-! ## Lines in a row -/

theorem untilHeader_append (first : List Line) {second : List Line}
    (starts : untilHeader second = []) :
    untilHeader (first ++ second) = untilHeader first := by
  induction first with
  | nil => exact starts
  | cons line rest ih =>
      rw [List.cons_append]
      by_cases header : line.isHeader = true
      · rw [untilHeader_cons_of_header header,
          untilHeader_cons_of_header header]
      · rw [untilHeader_cons_of_not_header header,
          untilHeader_cons_of_not_header header, ih]

/-- Where lines are cut in front of a header, the later part is asked first. -/
theorem lastBody?_append (owner : Section) (first : List Line)
    {second : List Line} (starts : untilHeader second = []) :
    lastBody? owner (first ++ second) =
      (lastBody? owner second).or (lastBody? owner first) := by
  induction first with
  | nil => simp [lastBody?]
  | cons line rest ih =>
      rw [List.cons_append, lastBody?, lastBody?, ih,
        untilHeader_append rest starts, Option.or_assoc]

/-- A header of a section and the lines under it. -/
structure SourceBlock (owner : Section) where
  header : Line
  body : List Line
  opens : header.IsHeaderOf owner
  inner : ∀ line ∈ body, line.isHeader = false

namespace SourceBlock

variable {owner : Section} (block : SourceBlock owner)

def lines : List Line :=
  block.header :: block.body

theorem untilHeader_lines (rest : List Line) :
    untilHeader (block.lines ++ rest) = [] :=
  untilHeader_cons_of_header block.opens.isHeader (block.body ++ rest)

theorem lastBody?_lines (wanted : Section) :
    lastBody? wanted block.lines = if owner = wanted then some block.body
      else none :=
  lastBody?_cons_of_header block.opens block.inner wanted

/-- A block in front of a header counts if no later block overrides it. -/
theorem lastBody?_lines_append (wanted : Section) {rest : List Line}
    (starts : untilHeader rest = []) :
    lastBody? wanted (block.lines ++ rest) =
      (lastBody? wanted rest).or (if owner = wanted then
        some block.body else none) := by
  rw [lastBody?_append wanted block.lines starts, block.lastBody?_lines]

end SourceBlock

/-! ## Blocks -/

/-- Every header of the list opens a section. -/
def HeadersOpen (lines : List Line) : Prop :=
  ∀ line ∈ lines, line.isHeader = true → ∃ owner, line.IsHeaderOf owner

theorem headersOpen_cons_iff {line : Line} {rest : List Line} :
    HeadersOpen (line :: rest) ↔
      (line.isHeader = true → ∃ owner, line.IsHeaderOf owner) ∧
        HeadersOpen rest := by
  simp [HeadersOpen]

theorem headersOpen_append_iff {first second : List Line} :
    HeadersOpen (first ++ second) ↔ HeadersOpen first ∧ HeadersOpen second :=
  List.forall_mem_append

theorem SourceBlock.headersOpen {owner : Section} (block : SourceBlock owner) :
    HeadersOpen block.lines := by
  rw [lines, headersOpen_cons_iff]
  refine ⟨fun _ => ⟨owner, block.opens⟩, ?_⟩
  intro line member header
  rw [block.inner line member] at header
  cases header

theorem Sections.lastBlock?_cons (owner : Section) (block : Block)
    (blocks : List Block) :
    Sections.lastBlock? owner (block :: blocks) =
      (Sections.lastBlock? owner blocks).or
        (if block.owner = owner then some block else none) := by
  unfold Sections.lastBlock?
  by_cases same : block.owner = owner
  · simp [same, List.getLast?_cons]
  · simp [same]

namespace Block

theorem carve_cons_of_header {source : String} {line : Line} {owner : Section}
    (header : line.IsHeaderOf owner) (rest : List Line) :
    carve source (line :: rest) = do
      let (lines, blocks) ← carve source rest
      return ([], ⟨owner, line.number, lines⟩ :: blocks) := by
  have isHeader := header.isHeader
  have opened := (Line.opens_eq_ok_iff isHeader).mpr header
  simp only [carve, isHeader, if_true, opened, locate_ok]
  rfl

theorem carve_cons_of_not_header {source : String} {line : Line}
    (inner : ¬ line.isHeader = true) (rest : List Line) :
    carve source (line :: rest) = do
      let (lines, blocks) ← carve source rest
      return (line :: lines, blocks) := by
  simp only [carve, inner]
  rfl

/-- Lines are carved into blocks if every header opens a section. -/
theorem exists_carve {lines : List Line} (headers : HeadersOpen lines)
    (source : String) :
    ∃ carved, carve source lines = .ok carved := by
  induction lines with
  | nil => exact ⟨([], []), rfl⟩
  | cons line rest ih =>
      rw [headersOpen_cons_iff] at headers
      obtain ⟨carved, inner⟩ := ih headers.2
      by_cases header : line.isHeader = true
      · obtain ⟨owner, isHeader⟩ := headers.1 header
        rw [carve_cons_of_header isHeader, inner]
        exact ⟨_, rfl⟩
      · rw [carve_cons_of_not_header header, inner]
        exact ⟨_, rfl⟩

/--
Lines that are carved into blocks have no other headers than those of sections,
and the last block of each section has the last body of the section.  What the
lines behind a header leave over is the body of its block.
-/
theorem of_carve {source : String} {lines lead : List Line}
    {blocks : List Block} (carved : carve source lines = .ok (lead, blocks)) :
    HeadersOpen lines ∧ lead = untilHeader lines ∧
      ∀ owner, (Sections.lastBlock? owner blocks).map Block.lines =
        lastBody? owner lines := by
  induction lines generalizing lead blocks with
  | nil =>
      cases carved
      refine ⟨?_, rfl, ?_⟩
      · intro line member
        cases member
      · intro owner
        rfl
  | cons line rest ih =>
      by_cases header : line.isHeader = true
      · simp only [carve, header, if_true, bind_eq_ok_iff] at carved
        obtain ⟨owner, opened, ⟨innerLead, innerBlocks⟩, inner, same⟩ := carved
        cases same
        rw [locate_eq_ok_iff, Line.opens_eq_ok_iff header] at opened
        obtain ⟨headers, innerIsLead, bodies⟩ := ih inner
        refine ⟨headersOpen_cons_iff.mpr ⟨fun _ => ⟨owner, opened⟩, headers⟩,
          (untilHeader_cons_of_header header rest).symm, ?_⟩
        intro wanted
        by_cases sameOwner : owner = wanted
        · subst sameOwner
          rw [Sections.lastBlock?_cons, lastBody?, ← bodies owner, if_pos rfl,
            if_pos opened, innerIsLead]
          cases Sections.lastBlock? owner innerBlocks <;> rfl
        · have notHeader : ¬ line.IsHeaderOf wanted := by
            intro other
            exact sameOwner (opened.owner_eq other)
          simp [Sections.lastBlock?_cons, lastBody?, sameOwner, notHeader,
            bodies wanted]
      · rw [carve_cons_of_not_header header, bind_eq_ok_iff] at carved
        obtain ⟨⟨innerLead, innerBlocks⟩, inner, same⟩ := carved
        cases same
        obtain ⟨headers, innerIsLead, bodies⟩ := ih inner
        refine ⟨headersOpen_cons_iff.mpr ⟨fun isHeader =>
          absurd isHeader header, headers⟩, ?_, ?_⟩
        · rw [untilHeader_cons_of_not_header header, innerIsLead]
        · intro wanted
          have notHeader : ¬ line.IsHeaderOf wanted := by
            intro isHeader
            exact header isHeader.isHeader
          simp [lastBody?, notHeader, bodies wanted]

end Block

/-! ## Sections -/

namespace Sections

/-- No line before the first header is in the way of the blocks. -/
theorem stray?_eq_none_iff (lines : List Line) :
    Block.stray? lines = none ↔
      ∀ line ∈ untilHeader lines, line.isInert = true := by
  simp [Block.stray?, untilHeader]

theorem ofLines_of_stray {lines : List Line} {line : Line}
    (stray : Block.stray? lines = some line) (source : String) :
    ofLines source lines = .error ⟨.textOutsideSection, line, source⟩ := by
  rw [ofLines, Block.ofLines, stray]
  rfl

theorem ofLines_of_no_stray {lines : List Line}
    (noStray : Block.stray? lines = none) (source : String) :
    ofLines source lines = (Block.carve source lines).map
      (fun carved => ofBlocks carved.2) := by
  rw [ofLines, Block.ofLines, noStray]
  cases Block.carve source lines <;> rfl

/-- Sections are read by carving the lines, once no line is in the way. -/
theorem ofLines_eq_ok_iff {source : String} {lines : List Line}
    {sections : Sections} :
    ofLines source lines = .ok sections ↔
      Block.stray? lines = none ∧
        ∃ lead blocks, Block.carve source lines = .ok (lead, blocks) ∧
          ofBlocks blocks = sections := by
  unfold ofLines Block.ofLines
  cases Block.stray? lines with
  | some line =>
      simp only [bind_eq_ok_iff, reduceCtorEq, false_and, exists_false]
  | none =>
      simp only [bind_eq_ok_iff, pure_eq_ok_iff, Prod.exists, true_and]
      constructor
      · rintro ⟨blocks, ⟨lead, carvedBlocks, carved, rfl⟩, same⟩
        exact ⟨lead, carvedBlocks, carved, same⟩
      · rintro ⟨lead, blocks, carved, same⟩
        exact ⟨blocks, ⟨lead, blocks, carved, rfl⟩, same⟩

/--
A list of lines has sections exactly if the lines before the first header are
blank or comments and every header opens a section.
-/
theorem exists_ofLines_iff (source : String) (lines : List Line) :
    (∃ sections, ofLines source lines = .ok sections) ↔
      (∀ line ∈ untilHeader lines,
        Token.isBlankLine line.text.toList = true ∨
          Token.isComment line.text.toList = true) ∧
      HeadersOpen lines := by
  simp only [← Line.isInert_iff, ← stray?_eq_none_iff]
  constructor
  · rintro ⟨sections, read⟩
    obtain ⟨noStray, lead, blocks, carved, -⟩ := ofLines_eq_ok_iff.mp read
    exact ⟨noStray, (Block.of_carve carved).1⟩
  · rintro ⟨noStray, headers⟩
    obtain ⟨⟨lead, blocks⟩, carved⟩ := Block.exists_carve headers source
    exact ⟨ofBlocks blocks, ofLines_eq_ok_iff.mpr ⟨noStray, lead, blocks,
      carved, rfl⟩⟩

theorem get?_ofBlocks (blocks : List Block) (owner : Section) :
    (ofBlocks blocks).get? owner = lastBlock? owner blocks := by
  cases owner <;> rfl

/-- The lines of a section are the body of its last block. -/
theorem body_ofLines {source : String} {lines : List Line} {sections : Sections}
    (read : ofLines source lines = .ok sections) (owner : Section) :
    sections.body owner = lastBody owner lines := by
  obtain ⟨-, lead, blocks, carved, rfl⟩ := ofLines_eq_ok_iff.mp read
  rw [lastBody, ← (Block.of_carve carved).2.2 owner, body, get?_ofBlocks]
  cases lastBlock? owner blocks <;> rfl

/-- A single block has sections, of which only its own has lines. -/
theorem exists_ofLines_block {owner : Section} (block : SourceBlock owner)
    (source : String) :
    ∃ sections, ofLines source block.lines = .ok sections ∧
      ∀ wanted, sections.body wanted = if owner = wanted then block.body
        else [] := by
  have lead : ∀ line ∈ untilHeader block.lines,
      Token.isBlankLine line.text.toList = true ∨
        Token.isComment line.text.toList = true := by
    rw [SourceBlock.lines, untilHeader_cons_of_header block.opens.isHeader]
    simp
  rcases (exists_ofLines_iff source block.lines).mpr
    ⟨lead, block.headersOpen⟩ with
    ⟨sections, read⟩
  refine ⟨sections, read, ?_⟩
  intro wanted
  rw [body_ofLines read]
  exact lastBody_cons_of_header block.opens block.inner wanted

end Sections

end Asm24.Assembly
