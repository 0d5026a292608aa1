import Asm24.Proofs.Gathering
import Asm24.Proofs.Steps

/-!
# The sections of a list of lines

`Refuses` names the lines that a list cannot have: text before the first header,
a header with too few or too many words, and a header whose identifier is not
that of a section.  A list with such a line has no sections, and the failure is
at the first of them.  In every other list the sections that headers open have
the blocks that `IsLastBlock` describes on the lines themselves.

`sections_of_lines` says so, together with the walk that gathers the same blocks
line by line.
-/

namespace Asm24.Assembly

open Asm24.Proofs

/-! ## Lines that are refused -/

/--
A line that may not stand behind the lines before it, and the fault of it.
-/
inductive Refuses (before : List Line) (line : Line) : Fault → Prop where
  | stray (noHeader : ∀ earlier ∈ before, earlier.isHeader = false)
      (inner : line.isHeader = false)
      (text : ¬ Token.isBlankLine line.text.toList = true)
      (code : ¬ Token.isComment line.text.toList = true) :
      Refuses before line .textOutsideSection
  | arity (header : line.isHeader = true) (count : line.tokens.length ≠ 2) :
      Refuses before line .headerArity
  | unknown {name : String} (tokens : line.tokens = [".SECTION", name])
      (noSection : ∀ owner : Section, name ≠ owner.name) :
      Refuses before line (.unknownSection name)

/-- A header that opens no section is refused wherever it stands. -/
theorem Refuses.of_opens {line : Line} {fault : Fault}
    (header : line.isHeader = true) (failed : line.opens = .error fault)
    (before : List Line) : Refuses before line fault := by
  unfold Line.opens at failed
  split at failed
  case h_1 directive name tokens =>
    have isDirective : directive = ".SECTION" := by
      simpa [Line.isHeader, tokens] using header
    split at failed
    case h_1 => cases failed
    case h_2 noSection =>
      cases failed
      refine .unknown (by rw [tokens, isDirective]) ?_
      intro owner named
      rw [Section.ofName?_eq_some_iff.mpr named] at noSection
      cases noSection
  case h_2 other =>
    cases failed
    refine .arity header ?_
    intro count
    rcases List.length_eq_two.mp count with ⟨directive, name, tokens⟩
    exact other directive name tokens

theorem mem_untilHeader_append {before : List Line} {line : Line}
    (noHeader : ∀ earlier ∈ before, earlier.isHeader = false)
    (inner : line.isHeader = false) (after : List Line) :
    line ∈ untilHeader (before ++ line :: after) := by
  rw [untilHeader, List.takeWhile_append_of_pos (by simpa using noHeader),
    List.takeWhile_cons_of_pos (by simp [inner])]
  exact List.mem_append_right before List.mem_cons_self

/-- No line of lines that have sections is refused. -/
theorem not_refuses_of_ofLines {source : String} {before after : List Line}
    {line : Line}
    (read : ∃ sections, Sections.ofLines source (before ++ line :: after) =
      .ok sections) (fault : Fault) : ¬ Refuses before line fault := by
  rcases (Sections.exists_ofLines_iff source _).mp read with ⟨lead, headers⟩
  have opened := headers line (List.mem_append_right before List.mem_cons_self)
  intro refused
  cases refused with
  | stray noHeader inner text code =>
      rcases lead line (mem_untilHeader_append noHeader inner after) with
        blank | comment
      · exact text blank
      · exact code comment
  | arity header count =>
      rcases opened header with ⟨owner, tokens⟩
      exact count (by rw [tokens]; rfl)
  | unknown tokens noSection =>
      rcases opened (by simp [Line.isHeader, tokens]) with ⟨owner, named⟩
      rw [Line.IsHeaderOf, tokens] at named
      exact noSection owner (by simpa using named)

theorem locate_eq_error_iff {result : Type} {source : String} {line : Line}
    {outcome : Except Fault result} {failure : Failure} :
    locate source line outcome = .error failure ↔
      ∃ fault, outcome = .error fault ∧ ⟨fault, line, source⟩ = failure := by
  cases outcome <;> simp

/-- Carving stops at the first header that opens no section. -/
theorem Block.of_carve_error {source : String} {lines : List Line}
    {failure : Failure} (failed : carve source lines = .error failure) :
    failure.source = source ∧ ∃ before after,
      lines = before ++ failure.line :: after ∧
      HeadersOpen before ∧ failure.line.isHeader = true ∧
      failure.line.opens = .error failure.fault := by
  induction lines with
  | nil => cases failed
  | cons line rest ih =>
      by_cases header : line.isHeader = true
      · simp only [carve, header, if_true, bind_eq_error_iff] at failed
        rcases failed with refused | ⟨owner, opened, inner | ⟨carved, -, ended⟩⟩
        · rcases locate_eq_error_iff.mp refused with ⟨fault, unopened, rfl⟩
          exact ⟨rfl, [], rest, rfl, List.forall_mem_nil _, header, unopened⟩
        · rw [locate_eq_ok_iff, Line.opens_eq_ok_iff header] at opened
          rcases ih inner with ⟨located, before, after, rfl, headers, stop⟩
          exact ⟨located, line :: before, after, rfl,
            headersOpen_cons_iff.mpr ⟨fun _ => ⟨owner, opened⟩, headers⟩, stop⟩
        · cases ended
      · rw [carve_cons_of_not_header header, bind_eq_error_iff] at failed
        rcases failed with inner | ⟨carved, -, ended⟩
        · rcases ih inner with ⟨located, before, after, rfl, headers, stop⟩
          exact ⟨located, line :: before, after, rfl,
            headersOpen_cons_iff.mpr ⟨fun isHeader => absurd isHeader header,
              headers⟩, stop⟩
        · cases ended

/--
Lines without sections are refused at a line behind lines that have sections.
All lines before the first header come before every line that carving can stop
at.
-/
theorem Refuses.of_ofLines {source : String} {lines : List Line}
    {failure : Failure}
    (failed : Sections.ofLines source lines = .error failure) :
    failure.source = source ∧ ∃ before after,
      lines = before ++ failure.line :: after ∧
      Refuses before failure.line failure.fault ∧
      ∃ sections, Sections.ofLines source before = .ok sections := by
  simp only [Sections.exists_ofLines_iff, ← Line.isInert_iff]
  cases stray : Block.stray? lines with
  | some line =>
      rw [Sections.ofLines_of_stray stray] at failed
      cases failed
      rcases List.find?_eq_some_iff_append.mp stray with
        ⟨text, before, others, lead, inert⟩
      have inner : ∀ earlier ∈ before ++ line :: others,
          earlier.isHeader = false := by
        rw [← lead]
        exact isHeader_of_mem_untilHeader
      rw [List.forall_mem_append, List.forall_mem_cons] at inner
      have notInert : ¬ line.isInert = true := by simpa using text
      rw [Line.isInert_iff, not_or] at notInert
      refine ⟨rfl, before, others ++
        lines.dropWhile (fun line => !line.isHeader), ?_,
          .stray inner.1 inner.2.1 notInert.1 notInert.2, ?_, ?_⟩
      · rw [← List.cons_append, ← List.append_assoc, ← lead]
        exact List.takeWhile_append_dropWhile.symm
      · intro earlier member
        simpa using inert earlier ((List.takeWhile_prefix _).subset member)
      · intro earlier member header
        rw [inner.1 earlier member] at header
        cases header
  | none =>
      rw [Sections.ofLines_of_no_stray stray] at failed
      cases carved : Block.carve source lines with
      | ok blocks =>
          rw [carved] at failed
          cases failed
      | error other =>
          rw [carved] at failed
          cases failed
          rcases Block.of_carve_error carved with
            ⟨located, before, after, rfl, headers, header, refused⟩
          refine ⟨located, before, after, rfl, .of_opens header refused before,
            ?_, headers⟩
          intro earlier member
          apply (Sections.stray?_eq_none_iff _).mp stray
          rw [untilHeader_append before
            (untilHeader_cons_of_header header after)]
          exact member

/-! ## Last blocks -/

/--
A block holds the lines between the last header of its section and the next
header of any section, or the end.
-/
inductive IsLastBlock (lines : List Line) (block : Block) : Prop where
  | intro (before : List Line) (header : Line) (after : List Line)
      (whole : lines = before ++ header :: (block.lines ++ after))
      (opens : header.IsHeaderOf block.owner)
      (number : block.header = header.number)
      (inner : ∀ line ∈ block.lines, line.isHeader = false)
      (ends : ∀ next, after.head? = some next → next.isHeader = true)
      (last : ∀ line ∈ after, ¬ line.IsHeaderOf block.owner)

/-- Lines that are cut in front of a header begin with it. -/
theorem isHeader_of_head? {lines : List Line} (starts : untilHeader lines = [])
    {line : Line} (first : lines.head? = some line) : line.isHeader = true := by
  cases lines with
  | nil => cases first
  | cons other rest =>
      cases first
      by_contra inner
      rw [untilHeader_cons_of_not_header inner] at starts
      cases starts

namespace IsLastBlock

theorem cons {rest : List Line} {block : Block}
    (isLast : IsLastBlock rest block) (line : Line) :
    IsLastBlock (line :: rest) block := by
  rcases isLast with
    ⟨before, header, after, rfl, opens, number, inner, ends, last⟩
  exact ⟨line :: before, header, after, rfl, opens, number, inner, ends, last⟩

theorem exists_header {lines : List Line} {block : Block}
    (isLast : IsLastBlock lines block) :
    ∃ line ∈ lines, line.IsHeaderOf block.owner := by
  rcases isLast with ⟨before, header, after, rfl, opens, -⟩
  exact ⟨header, List.mem_append_right before List.mem_cons_self, opens⟩

/-- A header that no other of its section follows opens the last block. -/
theorem of_header {header : Line} {owner : Section} {rest : List Line}
    (opens : header.IsHeaderOf owner) (last : lastBody? owner rest = none) :
    IsLastBlock (header :: rest) ⟨owner, header.number, untilHeader rest⟩ := by
  have cut :
      untilHeader rest ++ rest.dropWhile (fun line => !line.isHeader) = rest :=
    List.takeWhile_append_dropWhile
  refine ⟨[], header, rest.dropWhile (fun line => !line.isHeader),
    by rw [cut]; rfl, opens, rfl, isHeader_of_mem_untilHeader, fun next first =>
    ?_, ?_⟩
  · exact isHeader_of_head? (untilHeader_dropWhile rest) first
  · intro line member other
    rcases exists_lastBody? ⟨line, (List.dropWhile_suffix _).subset member,
      other⟩ with
      ⟨body, found⟩
    rw [last] at found
    cases found

end IsLastBlock

/-- The last carved block of a section is its last block in the lines. -/
theorem isLastBlock_of_carve {source : String} {lines lead : List Line}
    {blocks : List Block}
    (carved : Block.carve source lines = .ok (lead, blocks)) {owner : Section}
    {block : Block} (found : Sections.lastBlock? owner blocks = some block) :
    block.owner = owner ∧ IsLastBlock lines block := by
  induction lines generalizing lead blocks with
  | nil =>
      cases carved
      cases found
  | cons line rest ih =>
      by_cases header : line.isHeader = true
      · simp only [Block.carve, header, if_true, bind_eq_ok_iff] at carved
        rcases carved with
          ⟨opened, isOpened, ⟨innerLead, innerBlocks⟩, inner, same⟩
        cases same
        rw [locate_eq_ok_iff, Line.opens_eq_ok_iff header] at isOpened
        rcases Block.of_carve inner with ⟨-, rfl, bodies⟩
        rw [Sections.lastBlock?_cons] at found
        cases later : Sections.lastBlock? owner innerBlocks with
        | some other =>
            rw [later] at found
            cases found
            rcases ih inner later with ⟨sameOwner, isLast⟩
            exact ⟨sameOwner, isLast.cons line⟩
        | none =>
            rw [later, Option.none_or] at found
            split at found
            case isTrue sameOwner =>
              cases found
              cases sameOwner
              refine ⟨rfl, .of_header isOpened ?_⟩
              rw [← bodies, later]
              rfl
            case isFalse => cases found
      · rw [Block.carve_cons_of_not_header header, bind_eq_ok_iff] at carved
        rcases carved with ⟨⟨innerLead, innerBlocks⟩, inner, same⟩
        cases same
        rcases ih inner found with ⟨sameOwner, isLast⟩
        exact ⟨sameOwner, isLast.cons line⟩

/--
The block of a section is the last one in the lines, and there is one if any
header opens it.
-/
theorem get?_ofLines {source : String} {lines : List Line} {sections : Sections}
    (read : Sections.ofLines source lines = .ok sections) (owner : Section) :
    ((∃ block, sections.get? owner = some block) ↔
      ∃ line ∈ lines, line.IsHeaderOf owner) ∧
      ∀ block, sections.get? owner = some block →
        block.owner = owner ∧ IsLastBlock lines block := by
  rcases Sections.ofLines_eq_ok_iff.mp read with ⟨-, lead, blocks, carved, rfl⟩
  rw [Sections.get?_ofBlocks]
  refine ⟨⟨?_, ?_⟩, fun block found => isLastBlock_of_carve carved found⟩
  · rintro ⟨block, found⟩
    rcases isLastBlock_of_carve carved found with ⟨rfl, isLast⟩
    exact isLast.exists_header
  · intro opened
    rcases exists_lastBody? opened with ⟨body, found⟩
    rw [← (Block.of_carve carved).2.2, Option.map_eq_some_iff] at found
    rcases found with ⟨block, found, -⟩
    exact ⟨block, found⟩

/--
Lines have no sections exactly if some line is refused, and the failure is at
the first such line.  Otherwise the sections are those that headers open, each
with its last block.  The walk over the lines comes to the same end and never
finds a line without an open block.
-/
theorem sections_of_lines (source : String) (lines : List Line) :
    ((∃ failure, Sections.ofLines source lines = .error failure) ↔
      ∃ before line after fault, lines = before ++ line :: after ∧
        Refuses before line fault) ∧
    (∀ failure, Sections.ofLines source lines = .error failure →
      failure.source = source ∧ ∃ before after,
        lines = before ++ failure.line :: after ∧
        Refuses before failure.line failure.fault ∧
        ∀ earlier line between fault, before = earlier ++ line :: between →
          ¬ Refuses earlier line fault) ∧
    (∀ sections, Sections.ofLines source lines = .ok sections → ∀ owner,
      ((∃ block, sections.get? owner = some block) ↔
        ∃ line ∈ lines, line.IsHeaderOf owner) ∧
      ∀ block, sections.get? owner = some block →
        block.owner = owner ∧ IsLastBlock lines block) ∧
    gather source lines = (Sections.ofLines source lines).mapError .refused ∧
    ∀ line, gather source lines ≠ .error (.unopened line) := by
  refine ⟨⟨?_, ?_⟩, ?_, fun sections read => get?_ofLines read,
    gather_eq source lines, gather_ne_unopened source lines⟩
  · rintro ⟨failure, failed⟩
    rcases Refuses.of_ofLines failed with ⟨-, before, after, split, refused, -⟩
    exact ⟨before, failure.line, after, failure.fault, split, refused⟩
  · rintro ⟨before, line, after, fault, rfl, refused⟩
    cases read : Sections.ofLines source (before ++ line :: after) with
    | error failure => exact ⟨failure, rfl⟩
    | ok sections =>
        exact absurd refused (not_refuses_of_ofLines ⟨sections, read⟩ fault)
  · intro failure failed
    rcases Refuses.of_ofLines failed with
      ⟨located, before, after, split, refused, accepted⟩
    refine ⟨located, before, after, split, refused, ?_⟩
    rintro earlier line between fault rfl
    exact not_refuses_of_ofLines accepted fault

/--
A section that is opened twice, with the other section and a comment in between.
-/
def reopenedLines : List Line :=
  [⟨1, "# TABLES"⟩, ⟨2, ".SECTION READ-ONLY"⟩, ⟨3, "OLD:"⟩,
    ⟨4, ".SECTION INSTRUCTION"⟩, ⟨5, "DON"⟩, ⟨6, ".SECTION READ-ONLY"⟩,
    ⟨7, "# NEW"⟩, ⟨8, "NEW:"⟩]

/-- Two headers that open no section, behind a block. -/
def misnamedLines : List Line :=
  [⟨1, ".SECTION READ-WRITE"⟩, ⟨2, "DON"⟩, ⟨3, ".SECTION DATA"⟩,
    ⟨4, ".SECTION"⟩]

theorem sections_of_reopenedLines :
    (∃ sections, Sections.ofLines "tables" reopenedLines = .ok sections ∧
      sections.get? .readOnly =
        some ⟨.readOnly, 6, [⟨7, "# NEW"⟩, ⟨8, "NEW:"⟩]⟩ ∧
      sections.get? .readWrite = none ∧
      IsLastBlock reopenedLines ⟨.readOnly, 6, [⟨7, "# NEW"⟩, ⟨8, "NEW:"⟩]⟩) ∧
    (∃ failure, Sections.ofLines "tables" misnamedLines = .error failure ∧
      failure = ⟨.unknownSection "DATA", ⟨3, ".SECTION DATA"⟩, "tables"⟩ ∧
      ∃ before after, misnamedLines = before ++ failure.line :: after ∧
        ∀ earlier line between fault, before = earlier ++ line :: between →
          ¬ Refuses earlier line fault) := by
  constructor
  · have read : ∃ sections,
        Sections.ofLines "tables" reopenedLines = .ok sections ∧
        sections.get? .readOnly =
          some ⟨.readOnly, 6, [⟨7, "# NEW"⟩, ⟨8, "NEW:"⟩]⟩ ∧
        sections.get? .readWrite = none := ⟨_, by rfl, by rfl, by rfl⟩
    rcases read with ⟨sections, read, data, noState⟩
    have blocks :=
      (sections_of_lines "tables" reopenedLines).2.2.1 sections read .readOnly
    exact ⟨sections, read, data, noState, (blocks.2 _ data).2⟩
  · have failed : Sections.ofLines "tables" misnamedLines =
        .error ⟨.unknownSection "DATA", ⟨3, ".SECTION DATA"⟩, "tables"⟩ := by
          rfl
    rcases (sections_of_lines "tables" misnamedLines).2.1 _ failed with
      ⟨-, before, after, split, -, first⟩
    exact ⟨_, failed, rfl, before, after, split, first⟩

end Asm24.Assembly
