import Asm24.Assembly.SymbolTable
import Asm24.Assembly.Token
import Mathlib.Data.List.Basic

/-!
# The layout of a block

Every line of a block takes a number of words, and its place is the number of
words that the lines before it take.  Labels take none, so a label stands for
the place of the next line that does.

The places are computed by `placed`; `mem_placed_iff` says that the place of a
line is the sum over the lines before it.  The labels of a block with their
places extend a symbol table at its end, and a table in which no label occurs
twice gives each label the place at which it is declared.
-/

namespace Asm24.Assembly

open Asm24.Machine

/-! ## What a line holds -/

namespace Line

/-- The label that a line declares. -/
def label? (line : Line) : Option String :=
  if Token.isLabelLine line.text.toList then
    some (String.ofList line.text.toList.dropLast)
  else
    none

/--
Whether a line is neither the declaration of a label, nor blank, nor a comment.
-/
def isCode (line : Line) : Bool :=
  !(Token.isLabelLine line.text.toList || Token.isBlankLine line.text.toList ||
    Token.isComment line.text.toList)

/--
The three things that a line can hold, with the test that decides between them.
-/
theorem content_cases (line : Line) :
    (∃ name, line.content = .label name ∧ line.label? = some name ∧
      line.isCode = false) ∨
      (line.content = .inert ∧ line.label? = none ∧ line.isCode = false) ∨
        (line.content = .code line.tokens ∧ line.label? = none ∧
          line.isCode = true) := by
  unfold content label? isCode
  cases label : Token.isLabelLine line.text.toList with
  | true => simp [label]
  | false =>
      cases blank : Token.isBlankLine line.text.toList with
      | true => simp [label, blank]
      | false =>
          cases comment : Token.isComment line.text.toList with
          | true => simp [label, blank, comment]
          | false => simp [label, blank, comment]

theorem content_of_isCode {line : Line} (code : line.isCode = true) :
    line.content = .code line.tokens ∧ line.label? = none := by
  rcases line.content_cases with
    ⟨name, -, -, noCode⟩ | ⟨-, -, noCode⟩ | ⟨content, noLabel, -⟩
  · rw [code] at noCode
    cases noCode
  · rw [code] at noCode
    cases noCode
  · exact ⟨content, noLabel⟩

/-- A line that holds code declares no label. -/
theorem label?_eq_none_of_isCode {line : Line} (code : line.isCode = true) :
    line.label? = none :=
  (content_of_isCode code).2

theorem isCode_iff {line : Line} :
    line.isCode = true ↔ line.label? = none ∧
      Token.isBlankLine line.text.toList = false ∧
      Token.isComment line.text.toList = false := by
  unfold isCode label?
  cases Token.isLabelLine line.text.toList <;> simp

/-- A line that declares a label holds no code. -/
theorem isCode_eq_false_of_label? {line : Line} {name : String}
    (label : line.label? = some name) :
    line.isCode = false := by
  rw [Bool.eq_false_iff]
  intro code
  rw [label?_eq_none_of_isCode code] at label
  cases label

/-- A line declares a label exactly if it is the label followed by a colon. -/
theorem label?_eq_some_iff {line : Line} {name : String} :
    line.label? = some name ↔
      Token.isLabelName name.toList = true ∧ line.text = name ++ ":" := by
  unfold label? Token.isLabelLine
  constructor
  · intro label
    split at label
    case isTrue isLabel =>
      cases label
      rw [Bool.and_eq_true, beq_iff_eq] at isLabel
      refine ⟨by rw [String.toList_ofList]; exact isLabel.2,
        String.toList_inj.mp ?_⟩
      rw [String.toList_append, String.toList_ofList]
      exact (List.dropLast_append_getLast? _ isLabel.1).symm
    case isFalse => cases label
  · rintro ⟨isName, text⟩
    have chars : line.text.toList = name.toList ++ [':'] := by
      rw [text, String.toList_append]; rfl
    simp [chars, isName]

end Line

/-- The lines that hold code, in order. -/
def codeLines (lines : List Line) : List Line :=
  lines.filter Line.isCode

/-- The labels that lines declare, in order. -/
def declared (lines : List Line) : List String :=
  lines.filterMap Line.label?

theorem declared_map {change : Line → Line} {rename : String → String}
    {lines : List Line} (labels : ∀ line ∈ lines,
      (change line).label? = line.label?.map rename) :
    declared (lines.map change) = (declared lines).map rename := by
  rw [declared, List.filterMap_map, declared, List.map_filterMap]
  exact List.filterMap_congr labels

/-! ## Places -/

section Places

variable (size : Line → Nat)

/--
Each line with the number of words that are taken before it, from `start` on.
-/
def placed : (start : Nat) → List Line → List (Nat × Line)
  | _, [] => []
  | start, line :: rest => (start, line) :: placed (start + size line) rest

/-- The words that lines take. -/
def totalSize : List Line → Nat
  | [] => 0
  | line :: rest => size line + totalSize rest

@[simp]
theorem totalSize_nil : totalSize size [] = 0 :=
  rfl

@[simp]
theorem totalSize_cons (line : Line) (rest : List Line) :
    totalSize size (line :: rest) = size line + totalSize size rest :=
  rfl

theorem totalSize_append (first second : List Line) :
    totalSize size (first ++ second) =
      totalSize size first + totalSize size second := by
  induction first with
  | nil => simp
  | cons line rest ih => simp [ih, Nat.add_assoc]

theorem placed_append (start : Nat) (first second : List Line) :
    placed size start (first ++ second) =
      placed size start first ++ placed size (start + totalSize size first)
        second := by
  induction first generalizing start with
  | nil => simp [placed]
  | cons line rest ih => simp [placed, ih, Nat.add_assoc]

/-- The place of a line is what the lines before it take. -/
theorem mem_placed_iff {start place : Nat} {line : Line} {lines : List Line} :
    (place, line) ∈ placed size start lines ↔
      ∃ before after, lines = before ++ line :: after ∧
        place = start + totalSize size before := by
  induction lines generalizing start with
  | nil => simp [placed]
  | cons head rest ih =>
      simp only [placed, List.mem_cons, Prod.mk.injEq, ih]
      constructor
      · rintro (⟨rfl, rfl⟩ | ⟨before, after, rfl, rfl⟩)
        · exact ⟨[], rest, rfl, rfl⟩
        · exact ⟨head :: before, after, rfl, by simp [Nat.add_assoc]⟩
      · rintro ⟨before, after, same, rfl⟩
        cases before with
        | nil =>
            cases same
            exact Or.inl ⟨rfl, rfl⟩
        | cons first before =>
            cases same
            exact Or.inr ⟨before, after, rfl, by simp [Nat.add_assoc]⟩

/-- The labels of a block with their places, in order. -/
def declarations (start : Nat) (lines : List Line) : List (String × Nat) :=
  (placed size start lines).filterMap
    (fun (place, line) => line.label?.map (fun name => (name, place)))

@[simp]
theorem declarations_nil (start : Nat) : declarations size start [] = [] :=
  rfl

theorem declarations_cons_of_label {line : Line} {name : String}
    (label : line.label? = some name) (start : Nat) (rest : List Line) :
    declarations size start (line :: rest) =
      (name, start) :: declarations size (start + size line) rest := by
  simp [declarations, placed, label]

theorem declarations_cons_of_no_label {line : Line}
    (noLabel : line.label? = none) (start : Nat) (rest : List Line) :
    declarations size start (line :: rest) =
      declarations size (start + size line) rest := by
  simp [declarations, placed, noLabel]

theorem declarations_concat_of_no_label {last : Line}
    (noLabel : last.label? = none) (start : Nat) (lines : List Line) :
    declarations size start (lines ++ [last]) =
      declarations size start lines := by
  simp [declarations, placed_append, placed, noLabel]

/-- The names of the labels do not depend on their places. -/
theorem map_fst_declarations (start : Nat) (lines : List Line) :
    (declarations size start lines).map Prod.fst = declared lines := by
  induction lines generalizing start with
  | nil => rfl
  | cons line rest ih =>
      cases label : line.label? with
      | some name =>
          simp [declarations_cons_of_label size label, ih, declared, label]
      | none =>
          simp [declarations_cons_of_no_label size label, ih, declared, label]

/-- A label is declared at the place of its line. -/
theorem mem_declarations_iff {start place : Nat} {name : String}
    {lines : List Line} :
    (name, place) ∈ declarations size start lines ↔
      ∃ before line after, lines = before ++ line :: after ∧
        line.label? = some name ∧
        place = start + totalSize size before := by
  simp only [declarations, List.mem_filterMap, Prod.exists, mem_placed_iff,
    Option.map_eq_some_iff, Prod.mk.injEq]
  constructor
  · rintro ⟨_, line, ⟨before, after, split, rfl⟩, _, label, rfl, rfl⟩
    exact ⟨before, line, after, split, label, rfl⟩
  · rintro ⟨before, line, after, split, label, rfl⟩
    exact ⟨_, line, ⟨before, after, split, rfl⟩, name, label, rfl, rfl⟩

/-- The lines at places are the lines. -/
theorem mem_of_mem_placed {start : Nat} {lines : List Line} {entry : Nat × Line}
    (member : entry ∈ placed size start lines) : entry.2 ∈ lines := by
  rcases (mem_placed_iff size).mp member with ⟨before, after, split, -⟩
  simp [split]

/-! ### Lines that change in place -/

section Change

variable {size} {change : Line → Line} {lines : List Line}
  (sizes : ∀ line ∈ lines, size (change line) = size line)

include sizes

theorem totalSize_map :
    totalSize size (lines.map change) = totalSize size lines := by
  induction lines with
  | nil => rfl
  | cons line rest ih =>
      rcases List.forall_mem_cons.mp sizes with ⟨first, others⟩
      rw [List.map_cons, totalSize_cons, totalSize_cons, first, ih others]

/-- Lines that take the same words are at the same places. -/
theorem placed_map (start : Nat) :
    placed size start (lines.map change) =
      (placed size start lines).map (Prod.map id change) := by
  induction lines generalizing start with
  | nil => rfl
  | cons line rest ih =>
      rcases List.forall_mem_cons.mp sizes with ⟨first, others⟩
      rw [List.map_cons, placed, first, ih others, placed, List.map_cons]
      rfl

/-- Labels that are renamed where they stand keep their places. -/
theorem declarations_map {rename : String → String}
    (labels : ∀ line ∈ lines, (change line).label? = line.label?.map rename)
    (start : Nat) :
    declarations size start (lines.map change) =
      (declarations size start lines).map (Prod.map rename id) := by
  rw [declarations, placed_map sizes, List.filterMap_map, declarations,
    List.map_filterMap]
  apply List.filterMap_congr
  intro entry member
  simp [labels _ (mem_of_mem_placed size member), Option.map_map,
    Function.comp_def]

end Change

end Places

/-! ## Symbol tables -/

namespace SymbolTable

/-- The table with more labels at its end. -/
def extend (table : SymbolTable) (labels : List (String × Nat)) : SymbolTable :=
  ⟨table.entries ++ labels.map (Prod.map id UInt32.ofNat)⟩

@[simp]
theorem extend_nil (table : SymbolTable) : table.extend [] = table := by
  simp [extend]

theorem extend_append (table : SymbolTable)
    (first second : List (String × Nat)) :
    (table.extend first).extend second = table.extend (first ++ second) := by
  simp [extend]

@[simp]
theorem names_empty : empty.names = [] :=
  rfl

@[simp]
theorem names_extend (table : SymbolTable) (labels : List (String × Nat)) :
    (table.extend labels).names = table.names ++ labels.map Prod.fst := by
  simp [extend, names]

/--
A table without repeated labels stays so if a label is added that it does not
have.
-/
theorem nodup_names_extend {table : SymbolTable} {name : String}
    (distinct : table.names.Nodup) (fresh : name ∉ table.names) (place : Nat) :
    (table.extend [(name, place)]).names.Nodup := by
  rw [names_extend]
  refine List.nodup_append.mpr ⟨distinct, by simp, ?_⟩
  rintro known member _ new rfl
  have isNew : known = name := by simpa using new
  exact fresh (isNew ▸ member)

/-- A label that a table has is repeated by declaring it again. -/
theorem not_nodup_of_known {table : SymbolTable} {name : String}
    (known : name ∈ table.names) (later : List String) :
    ¬ (table.names ++ name :: later).Nodup := by
  intro distinct
  exact (List.nodup_append.mp distinct).2.2 name known name
    List.mem_cons_self rfl

theorem lookup_eq_none_iff {table : SymbolTable} {name : String} :
    table.lookup name = none ↔ name ∉ table.names := by
  rw [lookup, List.lookup_eq_none_iff, names, List.mem_map]
  constructor
  · rintro absent ⟨entry, member, rfl⟩
    simpa using absent entry member
  · intro absent entry member
    rw [bne_iff_ne]
    rintro rfl
    exact absent ⟨entry, member, rfl⟩

/-- A table has an address for exactly its labels. -/
theorem exists_lookup_iff {table : SymbolTable} {name : String} :
    (∃ address, table.lookup name = some address) ↔ name ∈ table.names := by
  rw [← Option.ne_none_iff_exists', ne_eq, lookup_eq_none_iff, not_not]

/--
A label can be bound exactly if the table does not have it, and then it comes
last.
-/
theorem define_eq_ok_iff {table final : SymbolTable} {name : String}
    {place : Nat} :
    table.define name (UInt32.ofNat place) = .ok final ↔
      name ∉ table.names ∧ table.extend [(name, place)] = final := by
  unfold define
  cases found : table.lookup name with
  | none =>
      have fresh := lookup_eq_none_iff.mp found
      simp [fresh, extend]
  | some address =>
      have known : name ∈ table.names := exists_lookup_iff.mp ⟨address, found⟩
      simp [known]

/--
A table without repeated labels gives each label the address of its entry.
-/
theorem lookup_eq_some_iff {table : SymbolTable} (distinct : table.names.Nodup)
    {name : String} {address : Address} :
    table.lookup name = some address ↔ (name, address) ∈ table.entries := by
  rw [lookup, List.lookup_eq_some_iff]
  constructor
  · rintro ⟨before, after, split, -⟩
    simp [split]
  · intro member
    obtain ⟨before, after, split⟩ := List.append_of_mem member
    refine ⟨before, after, split, ?_⟩
    intro entry earlier
    rw [bne_iff_ne]
    rintro rfl
    simp only [names, split, List.map_append, List.map_cons] at distinct
    exact (List.nodup_append.mp distinct).2.2 entry.1
      (List.mem_map_of_mem earlier) entry.1 List.mem_cons_self rfl

end SymbolTable

end Asm24.Assembly
