import Asm24.Proofs.Failure
import Asm24.Proofs.Inert
import Asm24.Proofs.Renaming
import Asm24.Proofs.Resuming

/-!
# The first failure

A source may have many faults, and only one is reported.  The passes go over the
blocks in a fixed order, and a pass goes over the lines of its block from the
first to the last.  A pass that stops at a line has read the lines before it,
has not looked at the lines after it, and has not come to any block that a later
pass reads.  So none of these lines has a part in the failure: they may hold
anything but headers, and the failure is the same.

`Refilled` says which lines may be others; `Prevails` says what the failure of a
pass rules out.
-/

namespace Asm24.Proofs

variable {cause value state : Type}

/-- A run fails exactly if it comes to a value at which its step fails. -/
theorem foldlM_eq_error_iff {step : state → value → Except cause state}
    {values : List value} {start : state} {failure : cause} :
    values.foldlM step start = .error failure ↔
      ∃ before stop after reached, values = before ++ stop :: after ∧
        before.foldlM step start = .ok reached ∧
        step reached stop = .error failure := by
  constructor
  · intro failed
    induction values generalizing start with
    | nil => cases failed
    | cons first rest ih =>
        rw [List.foldlM_cons] at failed
        rcases bind_eq_error_iff.mp failed with refused | ⟨next, stepped, later⟩
        · exact ⟨[], first, rest, start, rfl, rfl, refused⟩
        · rcases ih later with ⟨before, stop, after, reached, rfl, ran, refused⟩
          refine ⟨first :: before, stop, after, reached, rfl, ?_, refused⟩
          rw [List.foldlM_cons, stepped]
          exact ran
  · rintro ⟨before, stop, after, reached, rfl, ran, refused⟩
    rw [List.foldlM_append, ran]
    change (stop :: after).foldlM step reached = _
    rw [List.foldlM_cons, refused]
    rfl

end Asm24.Proofs

namespace Asm24.Assembly

open Asm24.Machine
open Asm24.Proofs

/-! ## Where a pass stops -/

/--
A pass reads the lines before that of a failure and stops there, whatever comes
after.
-/
structure StopsBehind {result : Type} (pass : List Line → Except Failure result)
    (before : List Line) (failure : Failure) : Prop where
  front : ∃ read, pass before = .ok read
  stop : ∀ after, pass (before ++ failure.line :: after) = .error failure

theorem runPass_eq_error_iff {item : Type} {base : Address} {source : String}
    {read : CodeReader item} {symbols : SymbolTable} {used : UInt32}
    {lines : List Line} {failure : Failure} :
    runPass base source read symbols used lines = .error failure ↔
      lines.foldlM (passStep base source read) ⟨symbols, used, []⟩ =
        .error failure := by
  rw [runPass]
  cases lines.foldlM (passStep base source read) ⟨symbols, used, []⟩ <;>
    simp [Except.map]

/--
A pass whose failures are at the lines that it fails for stops at the line of
its failure.  It fails there as a pass over this line alone does.
-/
theorem exists_stopsBehind {item : Type} {base : Address} {source : String}
    {read : CodeReader item}
    (single : ∀ symbols used line failure,
      runPass base source read symbols used [line] = .error failure →
        failure.line = line)
    {symbols : SymbolTable} {used : UInt32} {lines : List Line}
    {failure : Failure}
    (failed : runPass base source read symbols used lines = .error failure) :
    ∃ before after, lines = before ++ failure.line :: after ∧
      StopsBehind (runPass base source read symbols used) before failure := by
  rcases foldlM_eq_error_iff.mp (runPass_eq_error_iff.mp failed) with
    ⟨before, stop, after, reached, rfl, ran, refused⟩
  have alone : runPass base source read reached.symbols reached.used [stop] =
      .error failure := by
    have moved :=
      @passStep_append item base source read ⟨reached.symbols, reached.used, []⟩
      reached.items stop
    rw [List.append_nil, refused] at moved
    rw [runPass_eq_error_iff, List.foldlM_cons]
    cases stepped :
      passStep base source read ⟨reached.symbols, reached.used, []⟩ stop with
    | error other =>
        rw [stepped] at moved
        cases moved
        rfl
    | ok next =>
        rw [stepped] at moved
        cases moved
  obtain rfl := single _ _ _ failure alone
  refine ⟨before, after, rfl, ⟨(reached.symbols, reached.items), ?_⟩, ?_⟩
  · rw [runPass, ran]
    rfl
  · intro other
    rw [runPass_eq_error_iff]
    exact foldlM_eq_error_iff.mpr ⟨before, failure.line, other, reached, rfl,
      ran, refused⟩

theorem readData_stopsBehind {source : String} {symbols : SymbolTable}
    {used : UInt32} {lines : List Line} {failure : Failure}
    (failed : readData source symbols used lines = .error failure) :
    ∃ before after, lines = before ++ failure.line :: after ∧
      StopsBehind (readData source symbols used) before failure := by
  simp only [funext (readData_eq_run source symbols used)] at failed ⊢
  apply exists_stopsBehind _ failed
  intro symbols used line other alone
  rw [← readData_eq_run] at alone
  exact List.mem_singleton.mp
    (readData_failsOnly source symbols used [line] other alone).line

theorem readCode_stopsBehind {source : String} {symbols : SymbolTable}
    {count : UInt32} {lines : List Line} {failure : Failure}
    (failed : readCode source symbols count lines = .error failure) :
    ∃ before after, lines = before ++ failure.line :: after ∧
      StopsBehind (readCode source symbols count) before failure := by
  simp only [funext (readCode_eq_run source symbols count)] at failed ⊢
  apply exists_stopsBehind _ failed
  intro symbols count line other alone
  rw [← readCode_eq_run] at alone
  exact List.mem_singleton.mp
    (readCode_failsOnly source symbols count [line] other alone).line

/-! ## Where linking stops -/

/-- Linking stops at the first statement whose label the table does not have. -/
theorem Statement.exists_first_stop {source : String} {symbols : SymbolTable}
    {statements linked : List Statement} {failure : Failure}
    (stopped : linkAll source symbols statements = (linked, some failure)) :
    ∃ before stop after label, statements = before ++ stop :: after ∧
      (∀ statement ∈ before, ¬ statement.Stops symbols) ∧ stop.Awaits label ∧
      symbols.lookup label = none ∧
      failure = ⟨.undeclaredLabel label, stop.line, source⟩ := by
  cases first :
    statements.find? (fun statement => decide (statement.Stops symbols)) with
  | none =>
      have passes : ∀ statement ∈ statements, ¬ statement.Stops symbols := by
        simpa using List.find?_eq_none.mp first
      rcases exists_forall₂_linkedBy passes with ⟨finished, done⟩
      rw [linkAll_of_linkedBy done] at stopped
      cases stopped
  | some stop =>
      rcases List.find?_eq_some_iff_append.mp first with
        ⟨stops, before, after, rfl, passes⟩
      rcases of_decide_eq_true stops with ⟨label, awaits, unbound⟩
      have earlier : ∀ statement ∈ before, ¬ statement.Stops symbols := by
        simpa using passes
      rcases exists_forall₂_linkedBy earlier with ⟨finished, done⟩
      rw [linkAll_of_stop done awaits unbound] at stopped
      cases stopped
      exact ⟨before, stop, after, label, rfl, earlier, awaits, unbound, rfl⟩

/-- The statements of a block are those of its lines of code, in their order. -/
theorem map_line_statements {code : List Line}
    (operates : ∀ line ∈ code, IsOperation line) :
    (statements code).map Statement.line = codeLines code := by
  have lines := (isPass_readCode "").forall₂_yields operates 0
  have same :
      List.Forall₂ (fun line statement => line = Statement.line statement)
      (codeLines code) (statements code) := by
    apply lines.imp
    rintro line statement ⟨place, written⟩
    unfold statementAt? at written
    split at written
    case isTrue =>
      split at written
      case h_1 =>
        cases written
        rfl
      case h_2 => cases written
    case isFalse => cases written
  rw [← List.forall₂_map_right_iff, List.forall₂_eq_eq_eq] at same
  exact same.symm

/-- A line with a label in the place of a number is a line of code. -/
theorem isCode_of_refersTo {line : Line} {instruction : Instruction}
    {label : String} (written : readStatement line.tokens = .ok instruction)
    (operand : RefersTo instruction label) : line.isCode = true := by
  rcases readStatement_replace written operand with ⟨operator, middle, words, -⟩
  rw [Line.isCode_iff]
  refine ⟨?_, ?_, ?_⟩
  · cases declares : line.label? with
    | none => rfl
    | some name =>
        rcases Line.isWord_of_label? declares with ⟨nonempty, visible⟩
        rw [Line.tokens, Text.words_eq_singleton nonempty visible] at words
        simp at words
  · rw [Bool.eq_false_iff]
    intro blank
    rw [Line.tokens, (Text.words_eq_nil_iff _).mpr blank] at words
    cases words
  · rw [Bool.eq_false_iff]
    intro comment
    rcases Line.exists_sign_of_isComment comment with
      ⟨sign, piece, others, signed, isSign⟩
    have upper : sign.isUpper = true := by
      rw [signed] at written
      cases readStatement_iff_writes.mp written with
      | registers isOperator | number isOperator =>
          rcases isOperator with ⟨suffix, letters, -⟩
          rcases name_eq _ with ⟨first, second, third, name, isUpper, -⟩
          rw [name, String.toList_ofList] at letters
          obtain rfl := (List.cons.inj letters).1
          exact isUpper
    rcases isSign with rfl | rfl
    · revert upper
      decide
    · revert upper
      decide

/--
The lines of code before that of a statement are those of the statements before
it.
-/
theorem exists_split_of_statements {code : List Line}
    (operates : ∀ line ∈ code, IsOperation line) {before after : List Statement}
    {stop : Statement} (split : statements code = before ++ stop :: after) :
    ∃ front rest, code = front ++ stop.line :: rest ∧
      ∀ line ∈ front, line.isCode = true →
        ∃ statement ∈ before, statement.line = line ∧
          readStatement line.tokens = .ok statement.instruction := by
  have inOrder := map_line_statements operates
  rw [split, List.map_append, List.map_cons, eq_comm, codeLines,
    List.filter_eq_append_iff] at inOrder
  rcases inOrder with ⟨front, back, whole, frontLines, backLines⟩
  rcases List.filter_eq_cons_iff.mp backLines with
    ⟨skipped, rest, rfl, noCode, -⟩
  refine ⟨front ++ skipped, rest, by rw [whole, List.append_assoc], ?_⟩
  intro line member isCode
  rcases List.mem_append.mp member with inFront | inSkipped
  · have coded : line ∈ front.filter Line.isCode :=
      List.mem_filter.mpr ⟨inFront, isCode⟩
    rw [frontLines, List.mem_map] at coded
    rcases coded with ⟨statement, earlier, rfl⟩
    have inStatements : statement ∈ statements code := by
      rw [split]
      exact List.mem_append_left _ earlier
    exact ⟨statement, earlier, rfl, (of_mem_statements operates inStatements).2⟩
  · exact absurd isCode (noCode line inSkipped)

/--
The line at which linking stops is behind lines in which every label is
declared.
-/
theorem StopsIn.exists_first_undeclared {source : String} {lines : List Line}
    {failure : Failure} (stops : StopsIn source lines failure .linking) :
    ∃ before after, lastBody .instruction lines =
      before ++ failure.line :: after ∧
      ∀ earlier ∈ before, ∀ label, ¬ IsUndeclared lines earlier label := by
  cases stops with
  | linking cut readLines readOperations failed =>
      rw [Sections.body_ofLines cut] at readLines readOperations
      rcases passes_eq_ok_iff.mp ⟨readLines, readOperations⟩ with
        ⟨-, -, operates, -, rfl, -, rfl⟩
      rcases Statement.exists_first_stop failed with
        ⟨_, stop, _, _, split, passes, -, -, rfl⟩
      rcases exists_split_of_statements operates split with
        ⟨before, after, whole, earlierLines⟩
      refine ⟨before, after, whole, ?_⟩
      rintro line member label ⟨⟨instruction, written, operand⟩, -,
        noData, noCode⟩
      rcases earlierLines line member (isCode_of_refersTo written operand) with
        ⟨statement, earlier, -, same⟩
      rw [written] at same
      cases same
      have pending :=
        (written_of_readStatement written).pending?_eq_some_iff.mpr operand
      refine passes statement earlier
        ⟨label, Statement.pending?_eq_some_iff.mp pending, ?_⟩
      rw [SymbolTable.lookup_eq_none_iff, names_symbolTable,
        List.mem_append, not_or]
      exact ⟨noData, noCode⟩

/-! ## Blocks with other lines -/

/--
The headers of the lines, and what stands before the first one, are kept; every
block may have any other body.
-/
structure Refilled (lines edited : List Line) : Prop where
  lead : untilHeader edited = untilHeader lines
  headers : edited.filter Line.isHeader = lines.filter Line.isHeader

instance (lines edited : List Line) : Decidable (Refilled lines edited) :=
  decidable_of_iff (untilHeader edited = untilHeader lines ∧
      edited.filter Line.isHeader = lines.filter Line.isHeader)
    ⟨fun both => ⟨both.1, both.2⟩, fun refilled =>
      ⟨refilled.lead, refilled.headers⟩⟩

theorem headersOpen_iff_filter {lines : List Line} :
    HeadersOpen lines ↔ ∀ line ∈ lines.filter Line.isHeader, ∃ owner,
      line.IsHeaderOf owner := by
  simp only [HeadersOpen, List.mem_filter, and_imp]

theorem Refilled.exists_ofLines {source : String} {lines edited : List Line}
    (refilled : Refilled lines edited) {sections : Sections}
    (cut : Sections.ofLines source lines = .ok sections) :
    ∃ others, Sections.ofLines source edited = .ok others := by
  have read := (Sections.exists_ofLines_iff source lines).mp ⟨sections, cut⟩
  rw [Sections.exists_ofLines_iff, headersOpen_iff_filter, refilled.lead,
    refilled.headers, ← headersOpen_iff_filter]
  exact read

/-! ## What a failure hides -/

/-- The failure at which a pass stops is the error of assembling. -/
theorem StopsIn.assembleLines_eq {source : String} {lines : List Line}
    {failure : Failure} {pass : Pass}
    (stops : StopsIn source lines failure pass) :
    assembleLines source lines = .error (.refused failure) := by
  cases stops with
  | sections failed =>
      simp only [assembleLines, failed, refuse, bind, Except.bind]
  | data cut failed =>
      simp only [assembleLines, cut, failed, refuse, bind, Except.bind]
  | code cut readLines failed =>
      simp only [assembleLines, cut, readLines, failed, refuse, bind,
        Except.bind]
  | linking cut readLines readOperations failed =>
      simp only [assembleLines, cut, readLines, readOperations, failed, refuse,
        bind, Except.bind]

/--
The section whose last block a pass works on, if it works on a single block.
-/
def Pass.section? : Pass → Option Section
  | .sections => none
  | .data => some .readOnly
  | .code | .linking => some .instruction

/--
What a failure says about the lines of its block before and after it, and about
other blocks.
-/
inductive Prevails (source : String) (lines : List Line) (failure : Failure)
    (before : List Line) : Pass → Prop where
  /--
  In data, no line after the failure counts, nor does any line of another block.
  -/
  | data
      (hides : ∀ edited after, Refilled lines edited →
        lastBody .readOnly edited = before ++ failure.line :: after →
        assembleLines source edited = .error (.refused failure))
      (reads : ∀ edited, Refilled lines edited →
        lastBody .readOnly edited = before →
        ∃ sections result, Sections.ofLines source edited = .ok sections ∧
          readData source .empty 0 (sections.body .readOnly) = .ok result) :
      Prevails source lines failure before .data
  /--
  In code, no line after the failure counts, nor does any line but those of the
  data.
  -/
  | code
      (hides : ∀ edited after, Refilled lines edited →
        lastBody .readOnly edited = lastBody .readOnly lines →
        lastBody .instruction edited = before ++ failure.line :: after →
        assembleLines source edited = .error (.refused failure))
      (reads : ∀ edited, Refilled lines edited →
        lastBody .readOnly edited = lastBody .readOnly lines →
        lastBody .instruction edited = before →
        ∃ sections symbols allocations result,
          Sections.ofLines source edited = .ok sections ∧
          readData source .empty 0 (sections.body .readOnly) =
            .ok (symbols, allocations) ∧
          readCode source symbols 0 (sections.body .instruction) = .ok result) :
      Prevails source lines failure before .code
  /--
  In linking, the failure is at the first line with a label that no block
  declares.
  -/
  | linking (undeclared : IsUndeclared lines failure.line failure.fault.label)
      (first : ∀ earlier ∈ before, ∀ label,
        ¬ IsUndeclared lines earlier label) :
      Prevails source lines failure before .linking

/--
A pass that works on a block stops at a line of it, and its failure prevails
there.
-/
theorem StopsIn.exists_prevails {source : String} {lines : List Line}
    {failure : Failure} {pass : Pass}
    (stops : StopsIn source lines failure pass) {owner : Section}
    (works : pass.section? = some owner) :
    ∃ before after, lastBody owner lines = before ++ failure.line :: after ∧
      Prevails source lines failure before pass := by
  cases stops with
  | sections => cases works
  | data cut failed =>
      cases works
      rw [Sections.body_ofLines cut] at failed
      rcases readData_stopsBehind failed with
        ⟨before, after, split, ⟨read, front⟩, stop⟩
      refine ⟨before, after, split, .data ?_ ?_⟩
      · intro edited other refilled body
        rcases refilled.exists_ofLines cut with ⟨others, cutEdited⟩
        rw [← Sections.body_ofLines cutEdited] at body
        exact assembleLines_eq
          (.data cutEdited (by rw [body]; exact stop other))
      · intro edited refilled body
        rcases refilled.exists_ofLines cut with ⟨others, cutEdited⟩
        rw [← Sections.body_ofLines cutEdited] at body
        exact ⟨others, read, cutEdited, by rw [body]; exact front⟩
  | code cut readLines failed =>
      cases works
      rw [Sections.body_ofLines cut] at readLines failed
      rcases readCode_stopsBehind failed with
        ⟨before, after, split, ⟨read, front⟩, stop⟩
      refine ⟨before, after, split, .code ?_ ?_⟩
      · intro edited other refilled sameData body
        rcases refilled.exists_ofLines cut with ⟨others, cutEdited⟩
        rw [← sameData, ← Sections.body_ofLines cutEdited] at readLines
        rw [← Sections.body_ofLines cutEdited] at body
        exact assembleLines_eq
          (.code cutEdited readLines (by rw [body]; exact stop other))
      · intro edited refilled sameData body
        rcases refilled.exists_ofLines cut with ⟨others, cutEdited⟩
        rw [← sameData, ← Sections.body_ofLines cutEdited] at readLines
        rw [← Sections.body_ofLines cutEdited] at body
        exact ⟨others, _, _, read, cutEdited, readLines,
          by rw [body]; exact front⟩
  | linking cut readLines readOperations failed =>
      cases works
      have stopped := StopsIn.linking cut readLines readOperations failed
      rcases stopped.exists_first_undeclared with ⟨before, after, split, first⟩
      exact ⟨before, after, split, .linking stopped.isUndeclared.2 first⟩

/-! ## Line numbers -/

theorem nodup_numbers_lastBody {lines : List Line}
    (distinct : (lines.map Line.number).Nodup) (owner : Section) :
    ((lastBody owner lines).map Line.number).Nodup := by
  rw [lastBody]
  cases found : lastBody? owner lines with
  | none => exact List.nodup_nil
  | some body =>
      rcases exists_last_block found with
        ⟨before, block, after, rfl, -, -, rfl, -⟩
      refine distinct.sublist (List.Sublist.map _ ?_)
      rw [Option.getD_some, SourceBlock.lines]
      exact (List.sublist_cons_self _ _).trans
        ((List.sublist_append_left _ _).trans (List.sublist_append_right _ _))

/-- Where no two lines have one number, the number of a line tells its place. -/
theorem split_unique {lines before after front rest : List Line}
    {line other : Line} (distinct : (lines.map Line.number).Nodup)
    (split : lines = before ++ line :: after)
    (again : lines = front ++ other :: rest)
    (same : other.number = line.number) :
    front = before ∧ other = line ∧ rest = after := by
  have numbers := distinct
  rw [split, List.map_append, List.map_cons, List.nodup_middle, List.nodup_cons,
    List.mem_append, not_or, ← same] at numbers
  rcases numbers with ⟨⟨notBefore, notAfter⟩, -⟩
  have absent {part : List Line} (none : other.number ∉ part.map Line.number) :
      other ∉ part :=
    fun member => none (List.mem_map_of_mem member)
  rw [split, List.append_cons_inj_of_notMem (absent notBefore)
    (absent notAfter)] at again
  exact ⟨again.1.symm, again.2.1.symm, again.2.2.symm⟩

/--
An error is the failure of one pass.  A pass over a block fails at the line of
the block that has the number of the failure, and no later line, later block or
overridden block has a part in it.
-/
theorem first_failure_prevails {source : String} {lines : List Line}
    {error : AssemblyError} (distinct : (lines.map Line.number).Nodup)
    (failed : assembleLines source lines = .error error) :
    ∃ failure pass, error = .refused failure ∧
      StopsIn source lines failure pass ∧
      ∀ owner, pass.section? = some owner →
        (∃ before line after, lastBody owner lines = before ++ line :: after ∧
          line.number = failure.diagnostic.line) ∧
        ∀ before line after, lastBody owner lines = before ++ line :: after →
          line.number = failure.diagnostic.line →
          failure.line = line ∧ Prevails source lines failure before pass := by
  rcases exists_stopsIn failed with ⟨failure, pass, rfl, stops⟩
  refine ⟨failure, pass, rfl, stops, ?_⟩
  intro owner works
  rcases stops.exists_prevails works with ⟨before, after, split, prevails⟩
  refine ⟨⟨before, failure.line, after, split, rfl⟩, ?_⟩
  intro front line rest again number
  rcases split_unique (nodup_numbers_lastBody distinct owner) split again
    number with
    ⟨rfl, rfl, -⟩
  exact ⟨rfl, prevails⟩

/--
Faults in both blocks: too much data, an unknown directive and two lines that
write nothing.
-/
def crammedLines : List Line :=
  [⟨1, ".SECTION INSTRUCTION"⟩, ⟨2, "BAL NOWHERE"⟩, ⟨3, "HLT"⟩,
    ⟨4, ".SECTION READ-ONLY"⟩, ⟨5, ".ARR 511"⟩, ⟨6, ".INT 1"⟩, ⟨7, ".WORD 1"⟩]

/--
The data come first, and their first fault stays the same without all others.
-/
theorem first_failure_of_crammedLines :
    assembleLines "tables" crammedLines =
      .error (.refused ⟨.dataMemory, ⟨6, ".INT 1"⟩, "tables"⟩) ∧
    assembleLines "tables"
        [⟨1, ".SECTION INSTRUCTION"⟩, ⟨9, "DON"⟩, ⟨4, ".SECTION READ-ONLY"⟩,
          ⟨5, ".ARR 511"⟩, ⟨6, ".INT 1"⟩] =
      .error (.refused ⟨.dataMemory, ⟨6, ".INT 1"⟩, "tables"⟩) ∧
    ∃ sections result,
      Sections.ofLines "tables"
          [⟨1, ".SECTION INSTRUCTION"⟩, ⟨4, ".SECTION READ-ONLY"⟩,
            ⟨5, ".ARR 511"⟩] =
        .ok sections ∧
      readData "tables" .empty 0 (sections.body .readOnly) = .ok result := by
  have failed : assembleLines "tables" crammedLines =
      .error (.refused ⟨.dataMemory, ⟨6, ".INT 1"⟩, "tables"⟩) := by rfl
  rcases first_failure_prevails (by decide) failed with
    ⟨_, pass, same, stops, blocks⟩
  cases same
  have inData : pass = .data := by
    have kind := stops.within.kind
    have scope := stops.within.line
    revert kind scope
    cases pass <;> decide
  subst inData
  rcases (blocks .readOnly rfl).2 [⟨5, ".ARR 511"⟩] ⟨6, ".INT 1"⟩
    [⟨7, ".WORD 1"⟩] (by decide) rfl with ⟨-, ⟨hides, reads⟩⟩
  exact ⟨failed, hides _ [] (by decide) (by decide),
    reads _ (by decide) (by decide)⟩

end Asm24.Assembly
