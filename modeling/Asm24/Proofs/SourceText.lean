import Asm24.Assembly.Line
import Asm24.Proofs.Words
import Mathlib.Data.List.Forall2
import Mathlib.Logic.Relation

/-!
# Layout of a source text

Carriage returns in front of line feeds are taken off before a text is cut,
which changes none of its lines: they would be trimmed anyway.  So
`Line.split_eq` cuts the text as it stands.

A change inside one line of a text leaves the other lines as they are, and
trimming and upper case hide where a line starts, where it ends and how its
letters are written.  So the lines of a text do not depend on its layout:
`Relayout` is one change of it, and `Line.split_relayout` says that no number of
changes is seen.
-/

namespace Asm24.Text

/-! ## Trimming -/

theorem trim_eq (text : List Char) :
    trim text = (text.dropWhile isBlank).rdropWhile isBlank :=
  rfl

theorem trim_cons_blank {space : Char} (blank : isBlank space = true)
    (text : List Char) :
    trim (space :: text) = trim text := by
  rw [trim_eq, List.dropWhile_cons_of_pos blank, trim_eq]

theorem trim_concat_blank {space : Char} (blank : isBlank space = true)
    (text : List Char) :
    trim (text ++ [space]) = trim text := by
  rw [trim_eq, trim_eq, List.dropWhile_append]
  split
  case isTrue none =>
    rw [List.isEmpty_iff] at none
    rw [none, List.dropWhile_cons_of_pos blank]
    rfl
  case isFalse => rw [List.rdropWhile_concat_pos _ _ _ blank]

theorem dropWhile_append_visible {char : Char} (visible : isBlank char = false)
    (front back : List Char) :
    (front ++ char :: back).dropWhile isBlank = front.dropWhile isBlank ++
      char :: back := by
  induction front with
  | nil => simp [visible]
  | cons first rest ih =>
      cases blank : isBlank first with
      | true => simp [blank, ih]
      | false => simp [blank]

theorem rdropWhile_append_visible {char : Char} (visible : isBlank char = false)
    (front back : List Char) :
    (front ++ char :: back).rdropWhile isBlank =
      front ++ char :: back.rdropWhile isBlank := by
  have reversed := dropWhile_append_visible visible back.reverse front.reverse
  simp only [List.rdropWhile, List.reverse_append, List.reverse_cons,
    List.append_assoc, List.singleton_append, reversed, List.reverse_reverse]

theorem ne_feed_of_visible {char : Char} (visible : isBlank char = false) :
    char ≠ '\n' := by
  rintro rfl
  cases visible

/-- Trimming does not reach across a visible character. -/
theorem trim_append_visible {char : Char} (visible : isBlank char = false)
    (front back : List Char) :
    trim (front ++ char :: back) =
      front.dropWhile isBlank ++ char :: back.rdropWhile isBlank := by
  rw [trim_eq, dropWhile_append_visible visible,
    rdropWhile_append_visible visible]

/-! ## Upper case -/

/-- The capital letter at a place in the alphabet. -/
def capital (place : Fin 26) : Char :=
  Char.ofNat (65 + place)

/-- The small letter at a place in the alphabet. -/
def small (place : Fin 26) : Char :=
  Char.ofNat (97 + place)

theorem exists_place_of_isAlpha {letter : Char}
    (isLetter : letter.isAlpha = true) :
    ∃ place, letter = capital place ∨ letter = small place := by
  change (decide (65 ≤ letter.val ∧ letter.val ≤ 90) ||
    (97 ≤ letter.val && letter.val ≤ 122)) = true at isLetter
  simp only [Bool.or_eq_true, Bool.and_eq_true, decide_eq_true_eq,
    UInt32.le_iff_toNat_le] at isLetter
  change (65 ≤ letter.toNat ∧ letter.toNat ≤ 90) ∨
    (97 ≤ letter.toNat ∧ letter.toNat ≤ 122) at isLetter
  rcases isLetter with ⟨low, high⟩ | ⟨low, high⟩
  · refine ⟨⟨letter.toNat - 65, by omega⟩, Or.inl ?_⟩
    rw [capital, Nat.add_sub_cancel' low, Char.ofNat_toNat]
  · refine ⟨⟨letter.toNat - 97, by omega⟩, Or.inr ?_⟩
    rw [small, Nat.add_sub_cancel' low, Char.ofNat_toNat]

theorem alphabet (place : Fin 26) :
    isBlank (capital place) = false ∧ isBlank (small place) = false ∧
      (capital place).toUpper = capital place ∧
      (capital place).toLower = small place ∧
      (small place).toUpper = capital place ∧
      (small place).toLower = small place ∧
      upper (small place) = upper (capital place) := by
  revert place
  decide +kernel

/-- Letters of either case have the same upper case, and are visible. -/
theorem upper_of_isAlpha {letter other : Char}
    (isLetter : letter.isAlpha = true)
    (same : other = letter.toUpper ∨ other = letter.toLower) :
    isBlank letter = false ∧ isBlank other = false ∧
      upper other = upper letter := by
  rcases exists_place_of_isAlpha isLetter with ⟨place, isPlace⟩
  rcases alphabet place with
    ⟨capitalVisible, smallVisible, capitalUp, capitalDown, smallUp, smallDown,
      sameUpper⟩
  rcases isPlace with rfl | rfl
  · rw [capitalUp, capitalDown] at same
    rcases same with rfl | rfl
    · exact ⟨capitalVisible, capitalVisible, rfl⟩
    · exact ⟨capitalVisible, smallVisible, sameUpper⟩
  · rw [smallUp, smallDown] at same
    rcases same with rfl | rfl
    · exact ⟨smallVisible, capitalVisible, sameUpper.symm⟩
    · exact ⟨smallVisible, smallVisible, rfl⟩

/-- The ranges of the code points of white space. -/
def blankRanges : List (Nat × Nat) :=
  [(0x09, 0x0D), (0x20, 0x20), (0x85, 0x85), (0xA0, 0xA0), (0x1680, 0x1680),
    (0x2000, 0x200A), (0x2028, 0x2029), (0x202F, 0x202F), (0x205F, 0x205F),
    (0x3000, 0x3000)]

theorem exists_blankRange {space : Char} (blank : isBlank space = true) :
    ∃ range ∈ blankRanges, range.1 ≤ space.toNat ∧ space.toNat ≤ range.2 := by
  simp only [isBlank, Bool.or_eq_true, Bool.and_eq_true, decide_eq_true_eq,
    beq_iff_eq] at blank
  simp only [blankRanges, List.mem_cons, List.not_mem_nil, or_false,
    exists_eq_or_imp, exists_eq_left]
  omega

/-- White space has no other upper case. -/
theorem upper_eq_self_of_isBlank {space : Char} (blank : isBlank space = true) :
    upper space = space := by
  have apart : ∀ run ∈ caseRuns, ∀ range ∈ blankRanges,
      run.last < range.1 ∨ range.2 < run.first := by
    decide +kernel
  have noRun : caseRuns.find? (fun run => run.holds space.toNat) = none := by
    rw [List.find?_eq_none]
    intro run member
    rcases exists_blankRange blank with ⟨range, isRange, low, high⟩
    have outside := apart run member range isRange
    simp only [CaseRun.holds, Bool.and_eq_true, decide_eq_true_eq]
    omega
  rw [upper, noRun]

/-! ## Pieces -/

section Pieces

variable {separates : Char → Bool}

theorem exists_first_piece (separates : Char → Bool) (back : List Char) :
    back.takeWhile (!separates ·) = back ∨
      ∃ separator rest, separates separator = true ∧
        back = back.takeWhile (!separates ·) ++ separator :: rest := by
  induction back with
  | nil => exact Or.inl rfl
  | cons char rest ih =>
      cases cut : separates char with
      | true => exact Or.inr ⟨char, rest, cut, by simp [cut]⟩
      | false =>
          rcases ih with whole | ⟨separator, others, isSeparator, split⟩
          · exact Or.inl (by simp [cut, whole])
          · refine Or.inr ⟨separator, others, isSeparator, ?_⟩
            simp only [List.takeWhile_cons, cut, Bool.not_false, if_true,
              List.cons_append]
            exact congrArg (char :: ·) split

theorem exists_last_piece (separates : Char → Bool) (front : List Char) :
    front.rtakeWhile (!separates ·) = front ∨
      ∃ init separator, separates separator = true ∧
        front = init ++ separator :: front.rtakeWhile (!separates ·) := by
  rcases exists_first_piece separates front.reverse with
    whole | ⟨separator, rest, cut, split⟩
  · left
    rw [List.rtakeWhile, whole, List.reverse_reverse]
  · right
    refine ⟨rest.reverse, separator, cut, ?_⟩
    have back := congrArg List.reverse split
    rw [List.reverse_reverse] at back
    conv_lhs => rw [back]
    simp [List.rtakeWhile]

theorem split_append_of_last_piece {front : List Char} :
    ∃ before, ∀ rest, split separates (front ++ rest) =
      before ++ split separates (front.rtakeWhile (!separates ·) ++ rest) := by
  rcases exists_last_piece separates front with
    whole | ⟨init, separator, cut, divided⟩
  · exact ⟨[], fun rest => by rw [whole, List.nil_append]⟩
  · refine ⟨split separates init, ?_⟩
    intro rest
    conv_lhs => rw [divided]
    rw [List.append_assoc, List.cons_append, split_append_separator cut]

theorem split_append_of_first_piece {back : List Char} :
    ∃ after, ∀ rest, split separates (rest ++ back) =
      split separates (rest ++ back.takeWhile (!separates ·)) ++ after := by
  rcases exists_first_piece separates back with
    whole | ⟨separator, others, cut, divided⟩
  · exact ⟨[], fun rest => by rw [whole, List.append_nil]⟩
  · refine ⟨split separates others, ?_⟩
    intro rest
    conv_lhs => rw [divided]
    rw [← List.append_assoc, split_append_separator cut]

/--
Text without separators in the middle is a part of one piece, and the other
pieces stay.
-/
theorem exists_split_around (separates : Char → Bool) (front back : List Char) :
    ∃ before after, ∀ middle : List Char,
      (∀ char ∈ middle, separates char = false) →
      split separates (front ++ (middle ++ back)) =
        before ++ (front.rtakeWhile (!separates ·) ++
          (middle ++ back.takeWhile (!separates ·))) :: after := by
  rcases @split_append_of_last_piece separates front with ⟨before, ends⟩
  rcases @split_append_of_first_piece separates back with ⟨after, starts⟩
  refine ⟨before, after, ?_⟩
  intro middle whole
  rw [ends, ← List.append_assoc, starts, List.append_assoc, split_eq_singleton,
    List.singleton_append]
  intro char member
  rcases List.mem_append.mp member with inFront | inRest
  · simpa using List.mem_rtakeWhile_imp inFront
  · rcases List.mem_append.mp inRest with inMiddle | inBack
    · exact whole char inMiddle
    · simpa using List.mem_takeWhile_imp inBack

end Pieces

end Asm24.Text

namespace Asm24.Assembly

open Asm24.Text

/-! ## Changes of the layout -/

/--
What no change of a text is seen by is the same after any number of changes.
-/
theorem eq_of_changes {seen : Type} {Change : List Char → List Char → Prop}
    {view : String → seen} (unseen : ∀ left right : String,
      Change left.toList right.toList → view left = view right)
    {left right : String}
    (changes : Relation.EqvGen Change left.toList right.toList) :
    view left = view right := by
  have views {first second : List Char}
      (changes : Relation.EqvGen Change first second) :
      view (String.ofList first) = view (String.ofList second) := by
    induction changes with
    | rel _ _ change =>
        apply unseen
        rwa [String.toList_ofList, String.toList_ofList]
    | refl => rfl
    | symm _ _ _ ih => exact ih.symm
    | trans _ _ _ _ _ first second => exact first.trans second
  have same := views changes
  rwa [String.ofList_toList, String.ofList_toList] at same

/-- One change of the layout or the letter case of a text. -/
inductive Relayout : List Char → List Char → Prop where
  /-- A line feed becomes a carriage return and a line feed. -/
  | carriageReturn (front back : List Char) :
      Relayout (front ++ '\n' :: back) (front ++ '\r' :: '\n' :: back)
  /-- White space is put at the start of a line. -/
  | indent (front back : List Char) {space : Char}
      (blank : isBlank space = true) (inLine : space ≠ '\n')
      (starts : front = [] ∨ front.getLast? = some '\n') :
      Relayout (front ++ back) (front ++ space :: back)
  /-- White space is put at the end of a line. -/
  | trail (front back : List Char) {space : Char} (blank : isBlank space = true)
      (inLine : space ≠ '\n') (ends : back = [] ∨ back.head? = some '\n') :
      Relayout (front ++ back) (front ++ space :: back)
  /-- A letter changes its case. -/
  | letterCase (front back : List Char) {letter other : Char}
      (isLetter : letter.isAlpha = true)
      (same : other = letter.toUpper ∨ other = letter.toLower) :
      Relayout (front ++ letter :: back) (front ++ other :: back)

namespace Line

/-! ## Lines -/

theorem normalize_concat_return (raw : List Char) :
    normalize (raw ++ ['\r']) = normalize raw := by
  rw [normalize, trim_concat_blank (by decide), normalize]

/-- The pieces of a text are those without carriage returns at their ends. -/
theorem split_dropReturns (text : List Char) :
    List.Forall₂ (fun kept piece => piece = kept ∨ piece = kept ++ ['\r'])
      (Text.split (· == '\n') (dropReturns text))
      (Text.split (· == '\n') text) := by
  induction text with
  | nil => exact .cons (Or.inl rfl) .nil
  | cons char rest ih =>
      rw [dropReturns]
      split
      case isTrue ends =>
        rcases ends with ⟨rfl, feed⟩
        obtain ⟨others, rfl⟩ := List.head?_eq_some_iff.mp feed
        have kept :
            dropReturns ('\n' :: others) = '\n' :: dropReturns others := by
          rw [dropReturns, if_neg (by simp)]
        rw [kept] at ih ⊢
        cases ih with
        | cons _ tail => exact .cons (Or.inr rfl) tail
      case isFalse =>
        rw [Text.split, Text.split]
        cases feed : char == '\n' with
        | true =>
            rw [if_pos rfl, if_pos rfl]
            exact .cons (Or.inl rfl) ih
        | false =>
            rw [if_neg Bool.false_ne_true, if_neg Bool.false_ne_true]
            generalize Text.split (· == '\n') (dropReturns rest) = keeps at ih ⊢
            generalize Text.split (· == '\n') rest = pieces at ih ⊢
            cases ih with
            | nil => exact .nil
            | cons first tail =>
                refine .cons ?_ tail
                rcases first with rfl | rfl
                · exact Or.inl rfl
                · exact Or.inr rfl

/-- The carriage returns that are taken off would be trimmed from the lines. -/
theorem split_eq (text : String) :
    split text = ((Text.split (· == '\n') text.toList).zipIdx 1).map
      (fun (raw, number) => ⟨number, String.ofList (normalize raw)⟩) := by
  have pieces :
      (Text.split (· == '\n') (dropReturns text.toList)).map normalize =
      (Text.split (· == '\n') text.toList).map normalize := by
    rw [← List.forall₂_eq_eq_eq, List.forall₂_map_left_iff,
      List.forall₂_map_right_iff]
    refine (split_dropReturns text.toList).imp ?_
    rintro kept piece (rfl | rfl)
    · rfl
    · exact (normalize_concat_return kept).symm
  have numbered (raws : List (List Char)) :
      (raws.zipIdx 1).map (fun (raw, number) =>
        (⟨number, String.ofList (normalize raw)⟩ : Line)) =
      ((raws.map normalize).zipIdx 1).map (fun (text, number) =>
        ⟨number, String.ofList text⟩) := by
    rw [List.zipIdx_map, List.map_map]
    rfl
  rw [split, numbered, pieces, ← numbered]

/-- A text has one line more than it has line feeds. -/
theorem length_split (text : String) :
    (split text).length = text.toList.countP (· == '\n') + 1 := by
  simp [split_eq]

/-- The lines of a text are numbered from one. -/
theorem number_of_getElem?_split {text : String} {index : Nat} {line : Line}
    (found : (split text)[index]? = some line) : line.number = index + 1 := by
  rw [split_eq, List.getElem?_map, Option.map_eq_some_iff] at found
  rcases found with ⟨⟨raw, number⟩, there, rfl⟩
  rw [List.getElem?_zipIdx, Option.map_eq_some_iff] at there
  rcases there with ⟨_, -, same⟩
  cases same
  simp [Int.add_comm]

/-- The part of a text behind its last line feed. -/
def lastPart (text : List Char) : List Char :=
  text.rtakeWhile (fun char => !(char == '\n'))

/-- The part of a text in front of its first line feed. -/
def firstPart (text : List Char) : List Char :=
  text.takeWhile (fun char => !(char == '\n'))

/-- Texts that differ inside one line are seen alike if that line is. -/
theorem map_split_of_change {seen : Type} {view : Line → seen}
    {left right : String} {front old new back : List Char}
    (leftIs : left.toList = front ++ (old ++ back))
    (rightIs : right.toList = front ++ (new ++ back))
    (oldInLine : ∀ char ∈ old, char ≠ '\n')
    (newInLine : ∀ char ∈ new, char ≠ '\n')
    (same : ∀ number,
      view ⟨number, String.ofList
          (normalize (lastPart front ++ (old ++ firstPart back)))⟩ =
        view ⟨number, String.ofList
          (normalize (lastPart front ++ (new ++ firstPart back)))⟩) :
    (split left).map view = (split right).map view := by
  rcases exists_split_around (· == '\n') front back with ⟨before, after, around⟩
  have leftLines := around old (by simpa using oldInLine)
  have rightLines := around new (by simpa using newInLine)
  rw [← leftIs] at leftLines
  rw [← rightIs] at rightLines
  rw [lastPart, firstPart] at same
  simp [split_eq, leftLines, rightLines, List.zipIdx_append, same]

theorem split_of_change {left right : String} {front old new back : List Char}
    (leftIs : left.toList = front ++ (old ++ back))
    (rightIs : right.toList = front ++ (new ++ back))
    (oldInLine : ∀ char ∈ old, char ≠ '\n')
    (newInLine : ∀ char ∈ new, char ≠ '\n')
    (same : normalize (lastPart front ++ (old ++ firstPart back)) =
      normalize (lastPart front ++ (new ++ firstPart back))) :
    split left = split right := by
  have views :=
    @map_split_of_change _ id left right front old new back leftIs rightIs
      oldInLine newInLine (fun number => by rw [same])
  rwa [List.map_id, List.map_id] at views

/-- White space at the end of a line is trimmed. -/
theorem split_of_trail {left right : String} {front back : List Char}
    {space : Char} (blank : isBlank space = true) (inLine : space ≠ '\n')
    (ends : back = [] ∨ back.head? = some '\n')
    (leftIs : left.toList = front ++ back)
    (rightIs : right.toList = front ++ space :: back) :
    split left = split right := by
  have nothing : firstPart back = [] := by
    cases back with
    | nil => rfl
    | cons char rest =>
        have feed : char = '\n' := by simpa using ends
        simp [firstPart, feed]
  apply @split_of_change left right front [] [space] back leftIs rightIs
    (by simp) (by simpa using inLine)
  rw [nothing, List.append_nil, List.append_nil, List.append_nil, normalize,
    normalize, trim_concat_blank blank]

/-- A change of the layout leaves the lines as they are. -/
theorem split_of_relayout {left right : String}
    (change : Relayout left.toList right.toList) :
    split left = split right := by
  generalize leftIs : left.toList = leftText at change
  generalize rightIs : right.toList = rightText at change
  cases change with
  | carriageReturn front back =>
      exact split_of_trail (by decide) (by decide) (Or.inr rfl) leftIs rightIs
  | trail front back blank inLine ends =>
      exact split_of_trail blank inLine ends leftIs rightIs
  | @indent front back space blank inLine starts =>
      have nothing : lastPart front = [] := by
        rw [lastPart, List.rtakeWhile_eq_nil_iff]
        intro some
        have feed : front.getLast some = '\n' := by
          rw [← Option.some.injEq, ← List.getLast?_eq_some_getLast,
            starts.resolve_left some]
        simp [feed]
      apply @split_of_change left right front [] [space] back leftIs rightIs
        (by simp) (by simpa using inLine)
      rw [nothing, List.nil_append, List.nil_append, List.nil_append, normalize,
        normalize, List.singleton_append, trim_cons_blank blank]
  | @letterCase front back letter other isLetter same =>
      rcases upper_of_isAlpha isLetter same with
        ⟨visible, otherVisible, sameUpper⟩
      apply @split_of_change left right front [letter] [other] back
        leftIs rightIs (by simpa using ne_feed_of_visible visible)
        (by simpa using ne_feed_of_visible otherVisible)
      rw [List.singleton_append, List.singleton_append, normalize, normalize,
        trim_append_visible visible, trim_append_visible otherVisible]
      simp [upperCase, sameUpper]

/-- No number of changes of the layout is seen in the lines. -/
theorem split_relayout {left right : String}
    (changes : Relation.EqvGen Relayout left.toList right.toList) :
    split left = split right := by
  apply eq_of_changes _ changes
  intro first second change
  exact split_of_relayout change

end Line

end Asm24.Assembly
