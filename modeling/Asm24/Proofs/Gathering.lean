import Asm24.Proofs.LastBody

/-!
# Blocks gathered line by line

The sections of a source can be gathered in one walk over its lines.  The walk
passes over the lines before the first header.  From there on it holds the
blocks that are closed and the block that is open: a header closes the open
block, which replaces what was closed for its section before, and opens the next
one; every other line goes to the open block.  A line that finds no open block
would leave the walk with nowhere to put it.

`gather_eq` says that the walk ends with the sections which `Sections.ofLines`
cuts out of the lines, and `gather_ne_unopened` that every line finds an open
block.
-/

namespace Asm24.Assembly

/-! ## Sections as a table -/

namespace Sections

/-- The sections with a block in the place of the block of its section. -/
def insert (sections : Sections) (block : Block) : Sections :=
  match block.owner with
  | .readOnly => { sections with readOnly := some block }
  | .readWrite => { sections with readWrite := some block }
  | .instruction => { sections with instruction := some block }

@[simp]
theorem get?_insert (sections : Sections) (block : Block) (owner : Section) :
    (sections.insert block).get? owner =
      if block.owner = owner then some block else sections.get? owner := by
  unfold insert
  cases block.owner <;> cases owner <;> rfl

theorem ext_get? {first second : Sections}
    (same : ∀ owner, first.get? owner = second.get? owner) :
    first = second := by
  rcases first with ⟨readOnly, readWrite, instruction⟩
  rcases second with ⟨otherReadOnly, otherReadWrite, otherInstruction⟩
  rw [Sections.mk.injEq]
  exact ⟨same .readOnly, same .readWrite, same .instruction⟩

/-- Of blocks that are inserted in a row the last of each section stays. -/
theorem get?_foldl_insert (blocks : List Block) (sections : Sections)
    (owner : Section) :
    (blocks.foldl insert sections).get? owner =
      (lastBlock? owner blocks).or (sections.get? owner) := by
  induction blocks generalizing sections with
  | nil => rfl
  | cons block rest ih =>
      rw [List.foldl_cons, ih, lastBlock?_cons, Option.or_assoc, get?_insert]
      by_cases same : block.owner = owner
      · rw [if_pos same, if_pos same, Option.some_or]
      · rw [if_neg same, if_neg same, Option.none_or]

theorem foldl_insert_empty (blocks : List Block) :
    blocks.foldl insert {} = ofBlocks blocks := by
  apply ext_get?
  intro owner
  have nothing : ({} : Sections).get? owner = none := by cases owner <;> rfl
  rw [get?_foldl_insert, get?_ofBlocks, nothing, Option.or_none]

end Sections

/-! ## The walk -/

/-- Why a walk over lines stops. -/
inductive Halt where
  | refused (failure : Failure)
  /-- There is no open block that a line could go to. -/
  | unopened (line : Line)

/-- The blocks that are closed, and the block that is open. -/
structure Gathering where
  closed : Sections
  current : Option Block

namespace Gathering

/-- The sections after the open block is closed. -/
def commit (state : Gathering) : Sections :=
  match state.current with
  | none => state.closed
  | some block => state.closed.insert block

/-- One line of the walk. -/
def step (source : String) (state : Gathering) (line : Line) :
    Except Halt Gathering :=
  if line.isHeader then
    match locate source line line.opens with
    | .error failure => .error (.refused failure)
    | .ok owner => .ok ⟨state.commit, some ⟨owner, line.number, []⟩⟩
  else
    match state.current with
    | none => .error (.unopened line)
    | some block =>
        .ok { state with
          current := some { block with lines := block.lines ++ [line] } }

end Gathering

/-- The lines from the first header on, if none before it is in the way. -/
def skipLead (source : String) : List Line → Except Halt (List Line)
  | [] => .ok []
  | line :: rest =>
      if line.isHeader then .ok (line :: rest)
      else if line.isInert then skipLead source rest
      else .error (.refused ⟨.textOutsideSection, line, source⟩)

/-- The sections of lines, gathered in a walk. -/
def gather (source : String) (lines : List Line) : Except Halt Sections := do
  let rest ← skipLead source lines
  let state ← rest.foldlM (Gathering.step source) ⟨{}, none⟩
  return state.commit

theorem skipLead_eq (source : String) (lines : List Line) :
    skipLead source lines =
      match Block.stray? lines with
      | some line => .error (.refused ⟨.textOutsideSection, line, source⟩)
      | none => .ok (lines.dropWhile (fun line => !line.isHeader)) := by
  induction lines with
  | nil => rfl
  | cons line rest ih =>
      by_cases header : line.isHeader = true
      · simp [skipLead, Block.stray?, header]
      · by_cases inert : line.isInert = true
        · have later : Block.stray? (line :: rest) = Block.stray? rest := by
            simp [Block.stray?, header, inert]
          rw [skipLead, if_neg header, if_pos inert, ih, later,
            List.dropWhile_cons_of_pos (by simp [header])]
        · simp [skipLead, Block.stray?, header, inert]

theorem Block.carve_cons_of_refused {source : String} {line : Line}
    {fault : Fault} (header : line.isHeader = true)
    (refused : line.opens = .error fault) (rest : List Line) :
    carve source (line :: rest) = .error ⟨fault, line, source⟩ := by
  simp only [carve, header, if_true, refused, locate_error]
  rfl

namespace Gathering

variable {source : String} {state : Gathering} {line : Line}

theorem step_of_header {owner : Section} (header : line.IsHeaderOf owner) :
    step source state line =
      .ok ⟨state.commit, some ⟨owner, line.number, []⟩⟩ := by
  have opened := (Line.opens_eq_ok_iff header.isHeader).mpr header
  simp only [step, header.isHeader, if_true, opened, locate_ok]

theorem step_of_refused {fault : Fault} (header : line.isHeader = true)
    (refused : line.opens = .error fault) :
    step source state line = .error (.refused ⟨fault, line, source⟩) := by
  simp only [step, header, if_true, refused, locate_error]

/-- The walk with more lines in the open block. -/
def add (state : Gathering) (lines : List Line) : Gathering :=
  { state with
    current :=
    state.current.map (fun block =>
      { block with lines := block.lines ++ lines }) }

@[simp]
theorem add_nil (state : Gathering) : state.add [] = state := by
  simp [add]

theorem add_add (state : Gathering) (first second : List Line) :
    (state.add first).add second = state.add (first ++ second) := by
  simp [add, Function.comp_def]

theorem step_of_inner (inner : ¬ line.isHeader = true)
    (opened : state.current ≠ none) :
    step source state line = .ok (state.add [line]) := by
  rcases Option.ne_none_iff_exists'.mp opened with ⟨block, current⟩
  simp only [step, add, inner, current]
  rfl

/--
The walk goes on as the lines are carved: those up to the next header go to the
open block, and the blocks behind them are inserted one after the other.
Without an open block the walk has to be at a header, which every step keeps
true.
-/
theorem foldlM_step (source : String) (state : Gathering) (lines : List Line)
    (placed : state.current = none → untilHeader lines = []) :
    (lines.foldlM (step source) state).map commit =
      ((Block.carve source lines).mapError .refused).map (fun carved =>
        carved.2.foldl Sections.insert (state.add carved.1).commit) := by
  induction lines generalizing state with
  | nil =>
      change Except.ok state.commit = .ok (state.add []).commit
      rw [add_nil]
  | cons line rest ih =>
      rw [List.foldlM_cons]
      by_cases header : line.isHeader = true
      · cases opens : line.opens with
        | error fault =>
            rw [step_of_refused header opens,
              Block.carve_cons_of_refused header opens]
            rfl
        | ok owner =>
            have isHeader := (Line.opens_eq_ok_iff header).mp opens
            rw [step_of_header isHeader, Block.carve_cons_of_header isHeader]
            change (rest.foldlM (step source)
              ⟨state.commit, some ⟨owner, line.number, []⟩⟩).map commit = _
            rw [ih _ (fun none => by cases none)]
            cases Block.carve source rest with
            | error failure => rfl
            | ok carved =>
                change _ =
                  Except.ok (List.foldl _ ((state.add []).commit.insert _)
                    carved.2)
                rw [add_nil]
                rfl
      · have opened : state.current ≠ none := by
          intro none
          have starts := placed none
          rw [untilHeader_cons_of_not_header header] at starts
          cases starts
        rw [step_of_inner header opened, Block.carve_cons_of_not_header header]
        change (rest.foldlM (step source) (state.add [line])).map commit = _
        rw [ih _ (fun none => absurd (Option.map_eq_none_iff.mp none) opened)]
        cases Block.carve source rest with
        | error failure => rfl
        | ok carved =>
            change Except.ok (List.foldl
              _ ((state.add [line]).add carved.1).commit carved.2) = _
            rw [add_add]
            rfl

end Gathering

/-- The lines before the first header do not change the blocks. -/
theorem carve_dropWhile (source : String) (lines : List Line) :
    (Block.carve source (lines.dropWhile (fun line => !line.isHeader))).map
        (fun carved => Sections.ofBlocks carved.2) =
      (Block.carve source lines).map
        (fun carved => Sections.ofBlocks carved.2) := by
  induction lines with
  | nil => rfl
  | cons line rest ih =>
      by_cases header : line.isHeader = true
      · rw [List.dropWhile_cons_of_neg (by simp [header])]
      · rw [List.dropWhile_cons_of_pos (by simp [header]), ih,
          Block.carve_cons_of_not_header header]
        cases Block.carve source rest <;> rfl

/--
The walk ends with the sections of the lines or stops at the same failure.
-/
theorem gather_eq (source : String) (lines : List Line) :
    gather source lines = (Sections.ofLines source lines).mapError
      .refused := by
  rw [gather, skipLead_eq]
  cases stray : Block.stray? lines with
  | some line =>
      rw [Sections.ofLines_of_stray stray]
      rfl
  | none =>
      have walked := Gathering.foldlM_step source ⟨{}, none⟩ _
        (fun _ => untilHeader_dropWhile lines)
      rw [Sections.ofLines_of_no_stray stray, ← carve_dropWhile]
      refine Eq.trans walked ?_
      cases Block.carve source
        (lines.dropWhile (fun line => !line.isHeader)) with
      | error failure => rfl
      | ok carved =>
          exact congrArg Except.ok (Sections.foldl_insert_empty carved.2)

/-- No line finds the walk without an open block. -/
theorem gather_ne_unopened (source : String) (lines : List Line) (line : Line) :
    gather source lines ≠ .error (.unopened line) := by
  rw [gather_eq]
  cases Sections.ofLines source lines with
  | error failure =>
      intro same
      cases same
  | ok sections =>
      intro same
      cases same

end Asm24.Assembly
