import Asm24.Assembly.Program
import Asm24.Proofs.Success
import Mathlib.Data.List.Forall2

/-!
# The reading passes line by line

A pass over a block is a run of steps, one for each line.  The state of a run
holds the symbol table, the words in use and what the lines have yielded so far.
A label is bound, a line without text leaves the state as it is, and a line of
code is read and adds what it writes.

Both passes make these steps and differ only in how they read a line of code.
`readData_eq_run` and `readCode_eq_run` say so; what a pass does in all runs is
then shown once, from what it does in a step.
-/

namespace Asm24.Proofs

/-! ## Computations that fail -/

section Failing

variable {cause value result : Type}

theorem bind_eq_error_iff {first : Except cause value}
    {second : value → Except cause result} {failure : cause} :
    (first >>= second) = .error failure ↔
      first = .error failure ∨ ∃ middle, first = .ok middle ∧
        second middle = .error failure := by
  cases first with
  | error => simp [bind, Except.bind]
  | ok middle => simp [bind, Except.bind]

end Failing

/-! ## Computations side by side -/

/--
Two computations that both end with related values or both fail for related
causes.
-/
inductive Related {cause otherCause value otherValue : Type}
    (causes : cause → otherCause → Prop) (values : value → otherValue → Prop) :
    Except cause value → Except otherCause otherValue → Prop where
  | ok {left : value} {right : otherValue} (related : values left right) :
      Related causes values (.ok left) (.ok right)
  | error {left : cause} {right : otherCause} (related : causes left right) :
      Related causes values (.error left) (.error right)

namespace Related

variable {cause otherCause value otherValue result otherResult state
  otherState : Type} {causes : cause → otherCause → Prop} {values : value →
    otherValue → Prop}
  {results : result → otherResult → Prop} {states : state → otherState → Prop}

theorem exists_ok {first : Except cause value}
    {second : Except otherCause otherValue}
    (related : Related causes values first second) {left : value}
    (ended : first = .ok left) :
    ∃ right, second = .ok right ∧ values left right := by
  cases related with
  | ok related =>
      cases ended
      exact ⟨_, rfl, related⟩
  | error => cases ended

theorem exists_error {first : Except cause value}
    {second : Except otherCause otherValue}
    (related : Related causes values first second) {left : cause}
    (failed : first = .error left) :
    ∃ right, second = .error right ∧ causes left right := by
  cases related with
  | ok => cases failed
  | error related =>
      cases failed
      exact ⟨_, rfl, related⟩

theorem imp {first : Except cause value} {second : Except otherCause otherValue}
    {weaker : value → otherValue → Prop}
    (related : Related causes values first second)
    (weaken : ∀ left right, first = .ok left → second = .ok right →
      values left right →
      weaker left right) :
    Related causes weaker first second := by
  cases related with
  | ok related => exact .ok (weaken _ _ rfl rfl related)
  | error related => exact .error related

theorem bind {first : Except cause value}
    {otherFirst : Except otherCause otherValue}
    {second : value → Except cause result}
    {otherSecond : otherValue → Except otherCause otherResult}
    (firsts : Related causes values first otherFirst)
    (seconds : ∀ left right, values left right →
      Related causes results (second left) (otherSecond right)) :
    Related causes results (first >>= second) (otherFirst >>= otherSecond) := by
  cases firsts with
  | ok related => exact seconds _ _ related
  | error related => exact .error related

theorem map {first : Except cause value}
    {otherFirst : Except otherCause otherValue} {convert : value → result}
    {otherConvert : otherValue → otherResult}
    (firsts : Related causes values first otherFirst)
    (converts : ∀ left right, values left right →
      results (convert left) (otherConvert right)) :
    Related causes results (first.map convert)
      (otherFirst.map otherConvert) := by
  cases firsts with
  | ok related => exact .ok (converts _ _ related)
  | error related => exact .error related

/--
Computations with the same outcome under a view of their values are side by
side.
-/
theorem of_map_eq {first : Except cause value}
    {second : Except cause otherValue} {view : value → result}
    {otherView : otherValue → result}
    (same : first.map view = second.map otherView) :
    Related Eq (fun left right => view left = otherView right) first
      second := by
  cases first with
  | error left =>
      cases second with
      | error right => exact .error (Except.error.inj same)
      | ok right => cases same
  | ok left =>
      cases second with
      | error right => cases same
      | ok right => exact .ok (Except.ok.inj same)

theorem mapM {step : value → Except cause result}
    {otherStep : otherValue → Except otherCause otherResult}
    (steps : ∀ left right, values left right →
      Related causes results (step left) (otherStep right))
    {lefts : List value} {rights : List otherValue}
    (lists : List.Forall₂ values lefts rights) :
    Related causes (List.Forall₂ results) (lefts.mapM step)
      (rights.mapM otherStep) := by
  induction lists with
  | nil => exact .ok .nil
  | cons first rest ih =>
      rw [List.mapM_cons, List.mapM_cons]
      apply bind (steps _ _ first)
      intro left right related
      apply bind ih
      intro others otherRights relatedOthers
      exact .ok (.cons related relatedOthers)

/-- Runs over related values stay side by side if their steps do. -/
theorem foldlM {step : state → value → Except cause state}
    {otherStep : otherState → otherValue → Except otherCause otherState}
    (steps : ∀ left right first second, states left right →
      values first second →
      Related causes states (step left first) (otherStep right second))
    {lefts : List value} {rights : List otherValue}
    (lists : List.Forall₂ values lefts rights) {start : state}
    {otherStart : otherState} (starts : states start otherStart) :
    Related causes states (lefts.foldlM step start)
      (rights.foldlM otherStep otherStart) := by
  induction lists generalizing start otherStart with
  | nil => exact .ok starts
  | cons first rest ih =>
      rw [List.foldlM_cons, List.foldlM_cons]
      apply bind (steps _ _ _ _ starts first)
      intro left right related
      exact ih related

end Related

end Asm24.Proofs

namespace Asm24.Assembly

open Asm24.Machine
open Asm24.Proofs

/-! ## Steps -/

/-- How far a pass has come. -/
structure PassState (item : Type) where
  symbols : SymbolTable
  used : UInt32
  items : List item

/--
How a pass reads a line of code behind the words in use: what it writes, with
its size.
-/
abbrev CodeReader (item : Type) :=
  (used : UInt32) → Line → List String → Except Failure (item × UInt32)

section Step

variable {item : Type} (base : Address) (source : String)
  (read : CodeReader item)

/-- One line of a pass. -/
def passStep (state : PassState item) (line : Line) :
    Except Failure (PassState item) :=
  match line.content with
  | .label name => do
      let symbols ← locate source line
          (state.symbols.define name (base + state.used))
      return { state with symbols }
  | .inert => .ok state
  | .code tokens => do
      let (found, size) ← read state.used line tokens
      return { state with
        used := state.used + size, items := state.items ++ [found] }

/-- The symbols and items at the end of a pass. -/
def runPass (symbols : SymbolTable) (used : UInt32) (lines : List Line) :
    Except Failure (SymbolTable × List item) :=
  (lines.foldlM (passStep base source read) ⟨symbols, used, []⟩).map
    (fun state => (state.symbols, state.items))

variable {base source read}

theorem passStep_of_inert {line : Line} (inert : line.content = .inert)
    (state : PassState item) :
    passStep base source read state line = .ok state := by
  simp only [passStep, inert]

/-- What a line yields is put behind what there is already. -/
theorem passStep_append (state : PassState item) (front : List item)
    (line : Line) :
    passStep base source read { state with
      items := front ++ state.items } line =
      (passStep base source read state line).map
        (fun next => { next with items := front ++ next.items }) := by
  unfold passStep
  cases line.content with
  | label name =>
      dsimp only
      cases locate source line
        (state.symbols.define name (base + state.used)) <;> rfl
  | inert => rfl
  | code tokens =>
      dsimp only
      cases read state.used line tokens with
      | error => rfl
      | ok found => simp [bind, Except.bind, pure, Except.pure, Except.map]

theorem foldlM_passStep_append (state : PassState item) (front : List item)
    (lines : List Line) :
    lines.foldlM (passStep base source read) { state with
      items := front ++ state.items } =
      (lines.foldlM (passStep base source read) state).map
        (fun next => { next with items := front ++ next.items }) := by
  induction lines generalizing state with
  | nil => rfl
  | cons line rest ih =>
      rw [List.foldlM_cons, List.foldlM_cons, passStep_append]
      cases passStep base source read state line with
      | error => rfl
      | ok next => exact ih next

/--
A pass that makes the same step at its first line is the same at every line.
-/
theorem eq_runPass
    {pass : SymbolTable → UInt32 → List Line →
      Except Failure (SymbolTable × List item)}
    (nil : ∀ symbols used, pass symbols used [] = .ok (symbols, []))
    (cons : ∀ symbols used line rest, pass symbols used (line :: rest) = do
      let state ← passStep base source read ⟨symbols, used, []⟩ line
      (pass state.symbols state.used rest).map (Prod.map id (state.items ++ ·)))
    (symbols : SymbolTable) (used : UInt32) (lines : List Line) :
    pass symbols used lines = runPass base source read symbols used lines := by
  induction lines generalizing symbols used with
  | nil => exact nil symbols used
  | cons line rest ih =>
      rw [cons, runPass, List.foldlM_cons]
      cases passStep base source read ⟨symbols, used, []⟩ line with
      | error => rfl
      | ok state =>
          have later := @foldlM_passStep_append item base source read
            ⟨state.symbols, state.used, []⟩ state.items rest
          simp only [List.append_nil] at later
          change (pass state.symbols state.used rest).map _ =
            (rest.foldlM (passStep base source read) state).map _
          rw [ih, runPass, later]
          cases rest.foldlM (passStep base source read)
            ⟨state.symbols, state.used, []⟩ <;> rfl

theorem map_no_items (outcome : Except Failure (SymbolTable × List item)) :
    outcome.map (Prod.map id ([] ++ ·)) = outcome := by
  cases outcome <;> rfl

end Step

/-! ## The two passes -/

/-- The allocation of a line, held to the capacity of its region. -/
def takeAllocation (source : String) : CodeReader Allocation :=
  fun used line tokens => do
  let allocation ← locate source line (Allocation.read tokens used)
  if Region.readOnly.size < used + allocation.size then
    .error ⟨.dataMemory, line, source⟩
  return ({ allocation with line := line.number }, allocation.size)

/-- The statement of a line, held to the capacity of its region. -/
def takeStatement (source : String) : CodeReader Statement :=
  fun count line tokens => do
  let instruction ← locate source line (readStatement tokens)
  if Region.instruction.size ≤ count then
    .error ⟨.instructionMemory, line, source⟩
  return (⟨Region.instruction.base + count, line, instruction⟩, 1)

theorem readData_eq_run (source : String) (symbols : SymbolTable)
    (used : UInt32) (lines : List Line) :
    readData source symbols used lines =
      runPass Region.readOnly.base source (takeAllocation source) symbols used
        lines := by
  apply eq_runPass
  · intro symbols used
    rfl
  · intro symbols used line rest
    rw [readData, passStep]
    cases line.content with
    | label name =>
        dsimp only
        cases locate source line
          (symbols.define name (Region.readOnly.base + used)) with
        | error => rfl
        | ok extended =>
            exact (map_no_items (readData source extended used rest)).symm
    | inert => exact (map_no_items (readData source symbols used rest)).symm
    | code tokens =>
        dsimp only [takeAllocation]
        cases locate source line (Allocation.read tokens used) with
        | error => rfl
        | ok allocation =>
            by_cases full : Region.readOnly.size < used + allocation.size
            · simp only [bind, Except.bind, full, if_true]
            · simp only [bind, Except.bind, full, if_false, pure, Except.pure]
              cases readData source symbols (used + allocation.size) rest <;>
                rfl

theorem readCode_eq_run (source : String) (symbols : SymbolTable)
    (count : UInt32) (lines : List Line) :
    readCode source symbols count lines =
      runPass Region.instruction.base source (takeStatement source) symbols
        count lines := by
  apply eq_runPass
  · intro symbols count
    rfl
  · intro symbols count line rest
    rw [readCode, passStep]
    cases line.content with
    | label name =>
        dsimp only
        cases locate source line
          (symbols.define name (Region.instruction.base + count)) with
        | error => rfl
        | ok extended =>
            exact (map_no_items (readCode source extended count rest)).symm
    | inert => exact (map_no_items (readCode source symbols count rest)).symm
    | code tokens =>
        dsimp only [takeStatement]
        cases locate source line (readStatement tokens) with
        | error => rfl
        | ok instruction =>
            by_cases full : Region.instruction.size ≤ count
            · simp only [bind, Except.bind, full, if_true]
            · simp only [bind, Except.bind, full, if_false, pure, Except.pure]
              cases readCode source symbols (count + 1) rest <;> rfl

end Asm24.Assembly
