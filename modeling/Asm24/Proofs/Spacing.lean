import Asm24.Proofs.Inert
import Asm24.Proofs.Renaming
import Asm24.Proofs.SourceText

/-!
# White space between words

The assembler reads of a line its number, its words and what it holds, and the
white space between two words is in none of them.  Lines that agree in these are
assembled side by side: every pass makes the same step on both or fails on both
for the same fault.

The text of a line is kept in statements and in failures, so these agree up to
that text only.
-/

namespace Asm24.Text

theorem words_blanks_append {blanks : List Char}
    (blank : ∀ char ∈ blanks, isBlank char = true) (text : List Char) :
    words (blanks ++ text) = words text := by
  induction blanks with
  | nil => rfl
  | cons first rest ih =>
      rcases List.forall_mem_cons.mp blank with ⟨firstBlank, others⟩
      rw [List.cons_append, words_cons_blank firstBlank, ih others]

/-- The words before and after a run of white space do not depend on the run. -/
theorem words_append_run {run : List Char} (some : run ≠ [])
    (blank : ∀ char ∈ run, isBlank char = true) (front back : List Char) :
    words (front ++ (run ++ back)) = words front ++ words back := by
  rcases List.exists_cons_of_ne_nil some with ⟨first, rest, rfl⟩
  rcases List.forall_mem_cons.mp blank with ⟨firstBlank, others⟩
  rw [List.cons_append, words_append_blank firstBlank,
    words_blanks_append others]

end Asm24.Text

namespace Asm24.Assembly

open Asm24.Machine
open Asm24.Proofs
open Asm24.Text

/-! ## Lines that are read alike -/

/-- Lines of which the assembler reads the same. -/
structure Line.Agrees (left right : Line) : Prop where
  number : left.number = right.number
  tokens : left.tokens = right.tokens
  content : left.content = right.content

theorem isComment_cons_blank {space : Char} (blank : isBlank space = true)
    (first : Char) (rest : List Char) :
    Token.isComment (first :: space :: rest) = (first == '#') := by
  unfold Token.isComment
  split
  case h_1 same =>
    cases same
    rfl
  case h_2 same =>
    cases same
    cases blank
  case h_3 noHash _ =>
    symm
    rw [beq_eq_false_iff_ne]
    rintro rfl
    exact noHash _ rfl

/--
Whether a text with white space behind its start is a comment does not depend on
the rest.
-/
theorem isComment_append_run {front left right : List Char} (some : front ≠ [])
    (leftSome : left ≠ []) (rightSome : right ≠ [])
    (leftBlank : ∀ char ∈ left, isBlank char = true)
    (rightBlank : ∀ char ∈ right, isBlank char = true) (back : List Char) :
    Token.isComment (front ++ (left ++ back)) =
      Token.isComment (front ++ (right ++ back)) := by
  rcases List.exists_cons_of_ne_nil leftSome with ⟨space, leftRest, rfl⟩
  rcases List.exists_cons_of_ne_nil rightSome with ⟨other, rightRest, rfl⟩
  match front with
  | [] => exact absurd rfl some
  | [first] =>
      rw [List.singleton_append, List.singleton_append, List.cons_append,
        List.cons_append, isComment_cons_blank
          (leftBlank space List.mem_cons_self),
        isComment_cons_blank (rightBlank other List.mem_cons_self)]
  | first :: second :: rest => exact isComment_append (by simp) _ _

/-- Lines that differ by white space between two words agree. -/
theorem Line.agrees_of_run {front left right back : List Char}
    (some : front ≠ []) (leftSome : left ≠ []) (rightSome : right ≠ [])
    (leftBlank : ∀ char ∈ left, isBlank char = true)
    (rightBlank : ∀ char ∈ right, isBlank char = true) (number : Int) :
    Line.Agrees ⟨number, String.ofList (front ++ (left ++ back))⟩
      ⟨number, String.ofList (front ++ (right ++ back))⟩ := by
  have sameWords :
      words (front ++ (left ++ back)) = words (front ++ (right ++ back)) := by
    rw [words_append_run leftSome leftBlank,
      words_append_run rightSome rightBlank]
  have sameTokens :
      Line.tokens ⟨number, String.ofList (front ++ (left ++ back))⟩ =
      Line.tokens ⟨number, String.ofList (front ++ (right ++ back))⟩ := by
    rw [tokens, tokens, String.toList_ofList, String.toList_ofList, sameWords]
  have noLabel {run : List Char} (runSome : run ≠ [])
      (runBlank : ∀ char ∈ run, isBlank char = true) :
      Token.isLabelLine (front ++ (run ++ back)) = false := by
    rcases List.exists_cons_of_ne_nil runSome with ⟨space, rest, rfl⟩
    exact isLabelLine_of_isBlank (by simp) (runBlank space List.mem_cons_self)
  have sameBlank : Token.isBlankLine (front ++ (left ++ back)) =
      Token.isBlankLine (front ++ (right ++ back)) := by
    rw [Bool.eq_iff_iff, Token.isBlankLine, Token.isBlankLine,
      ← words_eq_nil_iff, ← words_eq_nil_iff, sameWords]
  refine ⟨rfl, sameTokens, ?_⟩
  simp only [content, String.toList_ofList, noLabel leftSome leftBlank,
    noLabel rightSome rightBlank, sameBlank, sameTokens,
    isComment_append_run some leftSome rightSome leftBlank rightBlank back,
    Bool.false_eq_true, if_false]

namespace Line

namespace Agrees

variable {left right : Line} (agrees : left.Agrees right)

include agrees

theorem isHeader : left.isHeader = right.isHeader := by
  rw [Line.isHeader, agrees.tokens, Line.isHeader]

theorem isInert : left.isInert = right.isInert := by
  rw [Bool.eq_iff_iff, ← content_eq_inert_iff, agrees.content,
    content_eq_inert_iff]

theorem opens : left.opens = right.opens := by
  unfold Line.opens
  rw [agrees.tokens]

theorem isHeaderOf_iff (owner : Section) :
    left.IsHeaderOf owner ↔ right.IsHeaderOf owner := by
  rw [IsHeaderOf, agrees.tokens, IsHeaderOf]

end Agrees

end Line

/-- Failures for the same fault at lines that agree. -/
structure Failure.Agrees (left right : Failure) : Prop where
  source : left.source = right.source
  fault : left.fault = right.fault
  line : left.line.Agrees right.line

theorem Line.Agrees.locate {result : Type} {left right : Line}
    (agrees : left.Agrees right) (source : String)
    (outcome : Except Fault result) :
    Related Failure.Agrees Eq (Assembly.locate source left outcome)
      (Assembly.locate source right outcome) := by
  cases outcome with
  | error fault => exact .error ⟨rfl, rfl, agrees⟩
  | ok value => exact .ok rfl

/-! ## Sections -/

section Lines

variable {lefts rights : List Line}
  (agree : List.Forall₂ Line.Agrees lefts rights)

include agree

theorem untilHeader_agree :
    List.Forall₂ Line.Agrees (untilHeader lefts) (untilHeader rights) := by
  induction agree with
  | nil => exact .nil
  | @cons left right _ _ agrees _ ih =>
      by_cases header : left.isHeader = true
      · rw [untilHeader_cons_of_header header,
          untilHeader_cons_of_header (agrees.isHeader ▸ header)]
        exact .nil
      · rw [untilHeader_cons_of_not_header header,
          untilHeader_cons_of_not_header (agrees.isHeader ▸ header)]
        exact .cons agrees ih

theorem lastBody?_agree (owner : Section) :
    Option.Rel (List.Forall₂ Line.Agrees) (lastBody? owner lefts)
      (lastBody? owner rights) := by
  induction agree with
  | nil => exact .none
  | @cons left right _ _ agrees rest ih =>
      rw [lastBody?, lastBody?]
      generalize lastBody? owner _ = later at ih
      generalize lastBody? owner _ = otherLater at ih
      cases ih with
      | some bodies => exact .some bodies
      | none =>
          rw [Option.none_or, Option.none_or]
          by_cases header : left.IsHeaderOf owner
          · rw [if_pos header, if_pos ((agrees.isHeaderOf_iff owner).mp header)]
            exact .some (untilHeader_agree rest)
          · rw [if_neg header,
              if_neg (mt (agrees.isHeaderOf_iff owner).mpr header)]
            exact .none

theorem lastBody_agree (owner : Section) :
    List.Forall₂ Line.Agrees (lastBody owner lefts)
      (lastBody owner rights) := by
  have bodies := lastBody?_agree agree owner
  rw [lastBody, lastBody]
  generalize lastBody? owner lefts = left at bodies
  generalize lastBody? owner rights = right at bodies
  cases bodies with
  | some bodies => exact bodies
  | none => exact .nil

theorem stray?_agree :
    Option.Rel Line.Agrees (Block.stray? lefts) (Block.stray? rights) := by
  have lead := untilHeader_agree agree
  change Option.Rel Line.Agrees ((untilHeader lefts).find? fun line =>
    !line.isInert)
    ((untilHeader rights).find? fun line => !line.isInert)
  generalize untilHeader lefts = leftLead at lead
  generalize untilHeader rights = rightLead at lead
  induction lead with
  | nil => exact .none
  | @cons left right _ _ agrees _ ih =>
      rw [List.find?_cons, List.find?_cons, agrees.isInert]
      cases right.isInert with
      | true => exact ih
      | false => exact .some agrees

theorem carve_agree (source : String) :
    Related Failure.Agrees (fun _ _ => True) (Block.carve source lefts)
      (Block.carve source rights) := by
  induction agree with
  | nil => exact .ok trivial
  | @cons left right _ _ agrees _ ih =>
      unfold Block.carve
      rw [agrees.isHeader]
      split
      case isTrue =>
        rw [agrees.opens]
        apply Related.bind (agrees.locate source right.opens)
        intro owner other same
        apply Related.bind ih
        intro carved otherCarved _
        exact .ok trivial
      case isFalse =>
        apply Related.bind ih
        intro carved otherCarved _
        exact .ok trivial

theorem sections_agree (source : String) :
    Related Failure.Agrees
      (fun left right : Sections => ∀ owner,
        List.Forall₂ Line.Agrees (left.body owner) (right.body owner))
      (Sections.ofLines source lefts) (Sections.ofLines source rights) := by
  have outcomes :
      Related Failure.Agrees (fun _ _ => True) (Sections.ofLines source lefts)
      (Sections.ofLines source rights) := by
    have strays := stray?_agree agree
    generalize leftStray : Block.stray? lefts = stray at strays
    generalize rightStray : Block.stray? rights = otherStray at strays
    cases strays with
    | some agrees =>
        rw [Sections.ofLines_of_stray leftStray,
          Sections.ofLines_of_stray rightStray]
        exact .error ⟨rfl, rfl, agrees⟩
    | none =>
        rw [Sections.ofLines_of_no_stray leftStray,
          Sections.ofLines_of_no_stray rightStray]
        exact Related.map (carve_agree agree source) (fun _ _ _ => trivial)
  apply outcomes.imp
  intro left right read otherRead _ owner
  rw [Sections.body_ofLines read, Sections.body_ofLines otherRead]
  exact lastBody_agree agree owner

end Lines

/-! ## Passes -/

/--
States of two passes that have come equally far, with items that are related.
-/
structure PassState.Agrees {item : Type} (items : item → item → Prop)
    (left right : PassState item) : Prop where
  symbols : left.symbols = right.symbols
  used : left.used = right.used
  items : List.Forall₂ items left.items right.items

/--
A reader that yields related items of the same size from lines that agree.
-/
def CodeReader.Agrees {item : Type} (items : item → item → Prop)
    (read : CodeReader item) : Prop :=
  ∀ used left right tokens, Line.Agrees left right →
    Related Failure.Agrees (fun first second => items first.1 second.1 ∧
      first.2 = second.2) (read used left tokens) (read used right tokens)

section Pass

variable {item : Type} {items : item → item → Prop} {base : Address}
  {source : String} {read : CodeReader item} (reads : read.Agrees items)

include reads

theorem passStep_agree {left right : PassState item}
    (states : left.Agrees items right) {line other : Line}
    (agrees : line.Agrees other) :
    Related Failure.Agrees (PassState.Agrees items)
      (passStep base source read left line)
      (passStep base source read right other) := by
  rcases states with ⟨sameSymbols, sameUsed, sameItems⟩
  unfold passStep
  rw [agrees.content, sameSymbols, sameUsed]
  cases other.content with
  | label name =>
      apply Related.bind (agrees.locate source _)
      rintro extended _ rfl
      exact .ok ⟨rfl, rfl, sameItems⟩
  | inert => exact .ok ⟨sameSymbols, sameUsed, sameItems⟩
  | code tokens =>
      apply Related.bind (reads right.used line other tokens agrees)
      rintro ⟨found, size⟩ ⟨otherFound, _⟩ ⟨sameItem, rfl⟩
      exact .ok ⟨rfl, rfl, List.rel_append sameItems (.cons sameItem .nil)⟩

theorem runPass_agree {lefts rights : List Line}
    (agree : List.Forall₂ Line.Agrees lefts rights) (symbols : SymbolTable)
    (used : UInt32) :
    Related Failure.Agrees
      (fun first second => first.1 = second.1 ∧
        List.Forall₂ items first.2 second.2)
      (runPass base source read symbols used lefts)
      (runPass base source read symbols used rights) := by
  have start : PassState.Agrees items ⟨symbols, used, []⟩ ⟨symbols, used, []⟩ :=
    ⟨rfl, rfl, .nil⟩
  apply Related.map (Related.foldlM _ agree start)
  · intro left right states
    exact ⟨states.symbols, states.items⟩
  · intro left right line other states agrees
    exact passStep_agree reads states agrees

end Pass

/--
Statements at the same address with the same instruction, of lines that agree.
-/
structure Statement.Agrees (left right : Statement) : Prop where
  address : left.address = right.address
  line : left.line.Agrees right.line
  instruction : left.instruction = right.instruction

theorem takeAllocation_agrees (source : String) :
    (takeAllocation source).Agrees Eq := by
  intro used left right tokens agrees
  apply Related.bind (agrees.locate source _)
  rintro allocation _ rfl
  by_cases full : Region.readOnly.size < used + allocation.size
  · simp only [full, if_true]
    exact .error ⟨rfl, rfl, agrees⟩
  · simp only [full, if_false]
    exact .ok ⟨by rw [agrees.number], rfl⟩

theorem takeStatement_agrees (source : String) :
    (takeStatement source).Agrees Statement.Agrees := by
  intro count left right tokens agrees
  apply Related.bind (agrees.locate source _)
  rintro instruction _ rfl
  by_cases full : Region.instruction.size ≤ count
  · simp only [full, if_true]
    exact .error ⟨rfl, rfl, agrees⟩
  · simp only [full, if_false]
    exact .ok ⟨⟨rfl, agrees, rfl⟩, rfl⟩

section Lines

variable {lefts rights : List Line}
  (agree : List.Forall₂ Line.Agrees lefts rights)

include agree

theorem readData_agree (source : String) (symbols : SymbolTable)
    (used : UInt32) :
    Related Failure.Agrees Eq (readData source symbols used lefts)
      (readData source symbols used rights) := by
  rw [readData_eq_run, readData_eq_run]
  apply (runPass_agree (takeAllocation_agrees source) agree symbols used).imp
  rintro ⟨_, allocations⟩ ⟨_, others⟩ - - ⟨rfl, same⟩
  rw [List.forall₂_eq_eq_eq] at same
  exact congrArg _ same

theorem readCode_agree (source : String) (symbols : SymbolTable)
    (count : UInt32) :
    Related Failure.Agrees
      (fun first second => first.1 = second.1 ∧
        List.Forall₂ Statement.Agrees first.2 second.2)
      (readCode source symbols count lefts)
      (readCode source symbols count rights) := by
  rw [readCode_eq_run, readCode_eq_run]
  exact runPass_agree (takeStatement_agrees source) agree symbols count

end Lines

/-! ## Linking and encoding -/

namespace Statement

theorem Agrees.link {left right : Statement} (agrees : left.Agrees right)
    (source : String) (symbols : SymbolTable) :
    Related Failure.Agrees Agrees (left.link source symbols)
      (right.link source symbols) := by
  have pending : left.pending? = right.pending? := by
    rw [pending?, agrees.instruction, pending?]
  unfold Statement.link
  rw [pending]
  cases right.pending? with
  | none => exact .ok agrees
  | some label =>
      dsimp only
      cases symbols.lookup label with
      | none => exact .error ⟨rfl, rfl, agrees.line⟩
      | some address =>
          refine .ok ⟨agrees.address, agrees.line, ?_⟩
          rw [resolve, agrees.instruction, resolve]

theorem linkAll_agree {lefts rights : List Statement}
    (agree : List.Forall₂ Agrees lefts rights) (source : String)
    (symbols : SymbolTable) :
    List.Forall₂ Agrees (linkAll source symbols lefts).1
      (linkAll source symbols rights).1 ∧
      Option.Rel Failure.Agrees (linkAll source symbols lefts).2
        (linkAll source symbols rights).2 := by
  induction agree with
  | nil => exact ⟨.nil, .none⟩
  | @cons left right _ _ agrees rest ih =>
      rw [linkAll, linkAll]
      have links := agrees.link source symbols
      generalize left.link source symbols = first at links
      generalize right.link source symbols = second at links
      cases links with
      | error failures => exact ⟨.cons agrees rest, .some failures⟩
      | ok linked => exact ⟨.cons linked ih.1, ih.2⟩

end Statement

/-- Refusals for failures that agree. -/
inductive AssemblyError.Agrees : AssemblyError → AssemblyError → Prop where
  | refused {left right : Failure} (agrees : left.Agrees right) :
      Agrees (.refused left) (.refused right)

theorem refuse_agree {value other : Type} {values : value → other → Prop}
    {first : Except Failure value} {second : Except Failure other}
    (related : Related Failure.Agrees values first second) :
    Related AssemblyError.Agrees values (Assembly.refuse first)
      (Assembly.refuse second) := by
  cases related with
  | ok related => exact .ok related
  | error agrees => exact .error (.refused agrees)

theorem Statement.Agrees.encode {left right : Statement}
    (agrees : left.Agrees right) (source : String) :
    Related AssemblyError.Agrees Eq (left.encode source)
      (right.encode source) := by
  cases encoded : right.instruction.encode with
  | ok word =>
      have leftEncoded : left.instruction.encode = .ok word := by
        rw [agrees.instruction, encoded]
      rw [Statement.encode_eq_ok_iff.mpr leftEncoded,
        Statement.encode_eq_ok_iff.mpr encoded]
      exact .ok rfl
  | error cause =>
      rw [Statement.encode, Statement.encode, agrees.instruction, encoded]
      exact .error (.refused ⟨rfl, rfl, agrees.line⟩)

/-! ## Programs -/

theorem Statement.places_eq {lefts rights : List Statement}
    (agree : List.Forall₂ Statement.Agrees lefts rights) :
    lefts.map (fun statement => (statement.address, statement.line.number)) =
      rights.map (fun statement =>
        (statement.address, statement.line.number)) := by
  induction agree with
  | nil => rfl
  | cons agrees _ ih =>
      rw [List.map_cons, List.map_cons, agrees.address, agrees.line.number, ih]

/-- Programs that differ at most by the texts of their lines. -/
structure Program.Agrees (left right : Program) : Prop where
  words : left.words = right.words
  symbols : left.symbols = right.symbols
  allocations : left.allocations = right.allocations
  statements : List.Forall₂ Statement.Agrees left.statements right.statements
  sourceMap : left.sourceMap = right.sourceMap

/--
Lines that agree are assembled into programs that agree, or refused for the same
fault.
-/
theorem assembleLines_agree {lefts rights : List Line}
    (agree : List.Forall₂ Line.Agrees lefts rights) (source : String) :
    Related AssemblyError.Agrees Program.Agrees (assembleLines source lefts)
      (assembleLines source rights) := by
  apply Related.bind (refuse_agree (sections_agree agree source))
  intro left right bodies
  apply Related.bind
    (refuse_agree (readData_agree (bodies .readOnly) source .empty 0))
  rintro ⟨symbols, allocations⟩ _ rfl
  apply Related.bind
    (refuse_agree (readCode_agree (bodies .instruction) source symbols 0))
  rintro ⟨final, statements⟩ ⟨_, others⟩ ⟨rfl, sameStatements⟩
  dsimp only
  rcases Statement.linkAll_agree sameStatements source final with
    ⟨linked, stops⟩
  generalize Statement.linkAll source final statements = first at linked stops
  generalize Statement.linkAll source final others = second at linked stops
  rcases first with ⟨leftLinked, leftStop⟩
  rcases second with ⟨rightLinked, rightStop⟩
  cases stops with
  | some failures => exact .error (.refused failures)
  | none =>
      apply Related.bind
        (Related.mapM (fun _ _ agrees => agrees.encode source) linked)
      intro words otherWords sameWords
      rw [List.forall₂_eq_eq_eq] at sameWords
      exact .ok ⟨sameWords, rfl, rfl, linked, Statement.places_eq linked⟩

/-! ## Changes of the white space -/

/-- One change of the white space between two words of a line. -/
inductive Respace : List Char → List Char → Prop where
  | run (front back : List Char) {last next : Char} {old new : List Char}
      (lastVisible : isBlank last = false) (nextVisible : isBlank next = false)
      (oldSome : old ≠ []) (newSome : new ≠ [])
      (oldBlank : ∀ char ∈ old, isBlank char = true ∧ char ≠ '\n')
      (newBlank : ∀ char ∈ new, isBlank char = true ∧ char ≠ '\n') :
      Respace (front ++ (last :: old ++ [next] ++ back))
        (front ++ (last :: new ++ [next] ++ back))

namespace Line

/-- What the assembler reads of a line. -/
def reading (line : Line) : Int × List String × Content :=
  (line.number, line.tokens, line.content)

theorem agrees_iff {left right : Line} :
    left.Agrees right ↔ left.reading = right.reading := by
  rw [reading, reading, Prod.mk.injEq, Prod.mk.injEq]
  constructor
  · rintro ⟨number, tokens, content⟩
    exact ⟨number, tokens, content⟩
  · rintro ⟨number, tokens, content⟩
    exact ⟨number, tokens, content⟩

/-- The form of a line around white space between two of its words. -/
theorem normalize_run {start stop run : List Char} {last next : Char}
    (lastVisible : isBlank last = false) (nextVisible : isBlank next = false)
    (blank : ∀ char ∈ run, isBlank char = true) :
    normalize (start ++ (last :: run ++ [next] ++ stop)) =
      upperCase (start.dropWhile isBlank ++ [last]) ++
        (run ++ upperCase (next :: stop.rdropWhile isBlank)) := by
  have same : run.map upper = run := by
    rw [List.map_congr_left fun char member =>
      upper_eq_self_of_isBlank (blank char member)]
    exact List.map_id run
  rw [normalize, List.append_assoc, List.cons_append,
    trim_append_visible lastVisible, List.singleton_append,
    rdropWhile_append_visible nextVisible]
  simp [upperCase, same]

theorem map_reading_of_respace {left right : String}
    (change : Respace left.toList right.toList) :
    (split left).map reading = (split right).map reading := by
  generalize leftIs : left.toList = leftText at change
  generalize rightIs : right.toList = rightText at change
  cases change with
  | @run front back last next old new lastVisible nextVisible oldSome newSome
      oldBlank newBlank =>
      have inLine {run : List Char}
          (blank : ∀ char ∈ run, isBlank char = true ∧ char ≠ '\n') :
          ∀ char ∈ last :: run ++ [next], char ≠ '\n' := by
        intro char member
        rcases List.mem_append.mp member with inFront | isNext
        · rcases List.mem_cons.mp inFront with rfl | inRun
          · exact ne_feed_of_visible lastVisible
          · exact (blank char inRun).2
        · rw [List.mem_singleton.mp isNext]
          exact ne_feed_of_visible nextVisible
      apply map_split_of_change leftIs rightIs (inLine oldBlank)
        (inLine newBlank)
      intro number
      rw [normalize_run lastVisible nextVisible fun char member =>
        (oldBlank char member).1,
        normalize_run lastVisible nextVisible fun char member =>
        (newBlank char member).1,
        ← agrees_iff]
      apply agrees_of_run _ oldSome newSome
      · intro char member
        exact (oldBlank char member).1
      · intro char member
        exact (newBlank char member).1
      · simp [upperCase]

/-- The lines of texts that differ by layout and white space agree. -/
theorem split_agree {left right : String}
    (changes : Relation.EqvGen (fun first second => Relayout first second ∨
      Respace first second) left.toList right.toList) :
    List.Forall₂ Agrees (split left) (split right) := by
  have views : (split left).map reading = (split right).map reading := by
    apply eq_of_changes _ changes
    rintro first second (relayout | respace)
    · rw [split_of_relayout relayout]
    · exact map_reading_of_respace respace
  rw [← List.forall₂_eq_eq_eq, List.forall₂_map_left_iff,
    List.forall₂_map_right_iff] at views
  apply views.imp
  intro first second same
  exact agrees_iff.mpr same

end Line

/--
The layout and the letter case of a text are not seen at all.  The white space
between words is not seen either but in the texts of lines: the program is the
same up to them, or the fault and the number of its line are.  The lines of a
text are one more than its line feeds and are numbered from one.
-/
theorem assemble_layout_irrelevant (source : String) :
    (∀ left right : String, Relation.EqvGen Relayout left.toList right.toList →
      Line.split left = Line.split right ∧
        assemble source left = assemble source right) ∧
    (∀ left right : String,
      Relation.EqvGen (fun first second => Relayout first second ∨
        Respace first second) left.toList right.toList →
      Related AssemblyError.Agrees Program.Agrees (assemble source left)
        (assemble source right)) ∧
    ∀ text : String, (Line.split text).length = text.toList.count '\n' + 1 ∧
      ∀ (index : Nat) (line : Line), (Line.split text)[index]? = some line →
        line.number = index + 1 := by
  refine ⟨?_, ?_, ?_⟩
  · intro left right changes
    have lines := Line.split_relayout changes
    exact ⟨lines, by rw [assemble, assemble, lines]⟩
  · intro left right changes
    exact assembleLines_agree (Line.split_agree changes) source
  · intro text
    refine ⟨Line.length_split text, ?_⟩
    intro index line found
    exact Line.number_of_getElem?_split found

/--
A text that is indented, has a carriage return, another letter case and wider
white space.
-/
theorem layout_irrelevant_for_loop :
    (assemble "loop.asm" ".section instruction\nbal end\nend:").map (·.words) =
      .ok [0x946010] ∧
    (Relation.EqvGen Relayout ".section instruction\nbal end\nend:".toList
        "\t.section instruction\r\nBal end\nend:".toList ∧
      Line.split ".section instruction\nbal end\nend:" =
        Line.split "\t.section instruction\r\nBal end\nend:" ∧
      assemble "loop.asm" ".section instruction\nbal end\nend:" =
        assemble "loop.asm" "\t.section instruction\r\nBal end\nend:") ∧
    Relation.EqvGen (fun first second => Relayout first second ∨
      Respace first second)
        ".section instruction\nbal end\nend:".toList
        ".section instruction\nbal \t end\nend:".toList ∧
      Related AssemblyError.Agrees Program.Agrees
        (assemble "loop.asm" ".section instruction\nbal end\nend:")
        (assemble "loop.asm" ".section instruction\nbal \t end\nend:") := by
  have indented : Relayout ".section instruction\nbal end\nend:".toList
      "\t.section instruction\nbal end\nend:".toList := by
    rw [show "\t.section instruction\nbal end\nend:".toList =
      [] ++ '\t' :: ".section instruction\nbal end\nend:".toList by
      decide +kernel]
    exact .indent [] _ (by decide) (by decide) (Or.inl rfl)
  have returned : Relayout "\t.section instruction\nbal end\nend:".toList
      "\t.section instruction\r\nbal end\nend:".toList := by
    rw [show "\t.section instruction\nbal end\nend:".toList =
        "\t.section instruction".toList ++ '\n' :: "bal end\nend:".toList by
      decide +kernel,
      show "\t.section instruction\r\nbal end\nend:".toList =
        "\t.section instruction".toList ++ '\r' :: '\n' ::
          "bal end\nend:".toList by decide +kernel]
    exact .carriageReturn _ _
  have capital : Relayout "\t.section instruction\r\nbal end\nend:".toList
      "\t.section instruction\r\nBal end\nend:".toList := by
    rw [show "\t.section instruction\r\nbal end\nend:".toList =
        "\t.section instruction\r\n".toList ++ 'b' :: "al end\nend:".toList by
      decide +kernel,
      show "\t.section instruction\r\nBal end\nend:".toList =
        "\t.section instruction\r\n".toList ++ 'B' :: "al end\nend:".toList by
      decide +kernel]
    exact .letterCase _ _ (by decide) (by decide)
  have respaced : Respace ".section instruction\nbal end\nend:".toList
      ".section instruction\nbal \t end\nend:".toList := by
    rw [show ".section instruction\nbal end\nend:".toList =
        ".section instruction\nba".toList ++
          ('l' :: [' '] ++ ['e'] ++ "nd\nend:".toList) by decide +kernel,
      show ".section instruction\nbal \t end\nend:".toList =
        ".section instruction\nba".toList ++
          ('l' :: [' ', '\t', ' '] ++ ['e'] ++ "nd\nend:".toList) by
      decide +kernel]
    exact .run _ _ (by decide) (by decide) (by simp) (by simp)
      (by simp [isBlank]) (by simp [isBlank])
  have relayouts :
      Relation.EqvGen Relayout ".section instruction\nbal end\nend:".toList
      "\t.section instruction\r\nBal end\nend:".toList :=
    .trans _ _ _ (.trans _ _ _ (.rel _ _ indented) (.rel _ _ returned))
      (.rel _ _ capital)
  have respaces :
      Relation.EqvGen (fun first second => Relayout first second ∨
        Respace first second)
      ".section instruction\nbal end\nend:".toList
      ".section instruction\nbal \t end\nend:".toList :=
    .rel _ _ (Or.inr respaced)
  refine ⟨by decide +kernel, ⟨relayouts, ?_⟩, respaces, ?_⟩
  · exact (assemble_layout_irrelevant "loop.asm").1 _ _ relayouts
  · exact (assemble_layout_irrelevant "loop.asm").2.1 _ _ respaces

end Asm24.Assembly
