import Asm24.Text.Blank
import Mathlib.Data.List.DropRight

/-!
# Words of a text

Cutting is determined by what it does at a separator: the texts before and after
it are cut each on its own.  The words of a text are its pieces between white
space, so a text in which words are written out with white space between them is
read back word by word.  Such a text is given by `spaced`.  In the same way
lines that are written out are read back.

The last word of a text can be replaced by another, which leaves the other words
as they are.
-/

namespace Asm24.Text

/-! ## Pieces -/

/-- A text without separators is one piece. -/
theorem split_eq_singleton {separates : Char → Bool} {text : List Char}
    (whole : ∀ char ∈ text, separates char = false) :
    split separates text = [text] := by
  induction text with
  | nil => rfl
  | cons char rest ih =>
      have inner :=
        ih (fun other member => whole other (List.mem_cons_of_mem char member))
      have first := whole char List.mem_cons_self
      simp [split, first, inner]

/-- The texts before and after a separator are cut each on its own. -/
theorem split_append_separator {separates : Char → Bool} {separator : Char}
    (cut : separates separator = true) (first second : List Char) :
    split separates (first ++ separator :: second) =
      split separates first ++ split separates second := by
  induction first with
  | nil => simp [split, cut]
  | cons char rest ih =>
      rw [List.cons_append, split, split, ih]
      have pieces := length_split separates rest
      cases inner : split separates rest with
      | nil => simp [inner] at pieces
      | cons piece others => split <;> simp

/-- The text before the first separator is the first piece. -/
theorem split_append_cons {separates : Char → Bool} {piece : List Char}
    {separator : Char} (whole : ∀ char ∈ piece, separates char = false)
    (cut : separates separator = true) (rest : List Char) :
    split separates (piece ++ separator :: rest) =
      piece :: split separates rest := by
  rw [split_append_separator cut, split_eq_singleton whole,
    List.singleton_append]

/--
A text in which every piece ends with a separator is cut into these pieces and
an empty one.
-/
theorem split_terminated {separates : Char → Bool} {separator : Char}
    (cut : separates separator = true) {pieces : List (List Char)}
    (whole : ∀ piece ∈ pieces, ∀ char ∈ piece, separates char = false) :
    split separates (pieces.flatMap (· ++ [separator])) = pieces ++ [[]] := by
  induction pieces with
  | nil => rfl
  | cons piece rest ih =>
      obtain ⟨first, others⟩ := List.forall_mem_cons.mp whole
      rw [List.flatMap_cons, List.append_assoc, List.singleton_append,
        split_append_cons first cut, ih others, List.cons_append]

/-- No piece holds a separator. -/
theorem separates_of_mem_split {separates : Char → Bool} {text : List Char} :
    ∀ piece ∈ split separates text, ∀ char ∈ piece, separates char = false := by
  induction text with
  | nil => simp [split]
  | cons first rest ih =>
      rw [split]
      split
      case isTrue => exact List.forall_mem_cons.mpr ⟨by simp, ih⟩
      case isFalse whole =>
        cases cut : split separates rest with
        | nil => simp
        | cons piece others =>
            rw [cut] at ih
            obtain ⟨inner, apart⟩ := List.forall_mem_cons.mp ih
            rw [List.modifyHead_cons]
            refine List.forall_mem_cons.mpr ⟨?_, apart⟩
            exact List.forall_mem_cons.mpr ⟨Bool.eq_false_iff.mpr whole, inner⟩

/--
A text in which a separator stands between any two pieces is cut into these
pieces.
-/
theorem split_intercalate {separates : Char → Bool} {separator : Char}
    (cut : separates separator = true) {pieces : List (List Char)}
    (some : pieces ≠ []) (whole : ∀ piece ∈ pieces, ∀ char ∈ piece,
      separates char = false) :
    split separates ([separator].intercalate pieces) = pieces := by
  induction pieces with
  | nil => cases some rfl
  | cons piece rest ih =>
      obtain ⟨first, others⟩ := List.forall_mem_cons.mp whole
      cases rest with
      | nil => rw [List.intercalate_singleton, split_eq_singleton first]
      | cons second rest =>
          rw [List.intercalate_cons_cons, List.append_assoc,
            List.singleton_append, split_append_cons first cut,
            ih (by simp) others]

/-! ## Lines -/

theorem beq_feed_eq_false {text : List Char} (whole : '\n' ∉ text) :
    ∀ char ∈ text, (char == '\n') = false := by
  intro char member
  rw [beq_eq_false_iff_ne]
  rintro rfl
  exact whole member

/-- Lines written out, with a line feed after each. -/
def terminated (lines : List String) : String :=
  String.join (lines.map (· ++ "\n"))

theorem terminated_append (first second : List String) :
    terminated (first ++ second) = terminated first ++ terminated second := by
  simp [terminated]

/-- The lines of a text in which every line ends with a line feed. -/
def linesOf (text : String) : List String :=
  (split (· == '\n') text.toList).dropLast.map String.ofList

/-- Lines that are written out are cut into these lines and an empty piece. -/
theorem split_toList_terminated {lines : List String}
    (whole : ∀ line ∈ lines, '\n' ∉ line.toList) :
    split (· == '\n') (terminated lines).toList =
      lines.map String.toList ++ [[]] := by
  have chars : (terminated lines).toList =
      (lines.map String.toList).flatMap (· ++ ['\n']) := by
    simp [terminated, String.toList_join, List.flatMap_map]
  have cut : ∀ piece ∈ lines.map String.toList,
      ∀ char ∈ piece, (char == '\n') = false := by
    rw [List.forall_mem_map]
    exact fun line member => beq_feed_eq_false (whole line member)
  rw [chars, split_terminated (by decide) cut]

theorem linesOf_terminated {lines : List String}
    (whole : ∀ line ∈ lines, '\n' ∉ line.toList) :
    linesOf (terminated lines) = lines := by
  rw [linesOf, split_toList_terminated whole, List.dropLast_concat,
    List.map_map]
  simp

/-! ## Words -/

@[simp]
theorem words_nil : words [] = [] :=
  rfl

/-- Words do not reach across white space. -/
theorem words_append_blank {char : Char} (blank : isBlank char = true)
    (first second : List Char) :
    words (first ++ char :: second) = words first ++ words second := by
  rw [words, split_append_separator blank, List.filter_append, words, words]

/-- White space in front of a text is no part of a word. -/
theorem words_cons_blank {char : Char} (blank : isBlank char = true)
    (rest : List Char) :
    words (char :: rest) = words rest :=
  words_append_blank blank [] rest

/-- A text without white space is one word. -/
theorem words_eq_singleton {word : List Char} (nonempty : word ≠ [])
    (whole : ∀ char ∈ word, isBlank char = false) :
    words word = [word] := by
  rw [words, split_eq_singleton whole]
  simp [nonempty]

/-- The text before the first white space is the first word. -/
theorem words_append_cons {word : List Char} {char : Char}
    (nonempty : word ≠ []) (whole : ∀ char ∈ word, isBlank char = false)
    (blank : isBlank char = true) (rest : List Char) :
    words (word ++ char :: rest) = word :: words rest := by
  rw [words_append_blank blank, words_eq_singleton nonempty whole,
    List.singleton_append]

/--
A text that starts with a visible character has a first word, which starts with
it.
-/
theorem exists_words_cons {char : Char} (visible : isBlank char = false)
    (rest : List Char) :
    ∃ piece others, words (char :: rest) = (char :: piece) :: others := by
  have pieces := length_split isBlank rest
  cases cut : split isBlank rest with
  | nil => simp [cut] at pieces
  | cons piece others =>
      refine ⟨piece, others.filter (!·.isEmpty), ?_⟩
      simp [words, split, visible, cut]

theorem words_cons_ne_nil {char : Char} (visible : isBlank char = false)
    (rest : List Char) :
    words (char :: rest) ≠ [] := by
  rcases exists_words_cons visible rest with ⟨piece, others, found⟩
  rw [found]
  exact List.cons_ne_nil _ _

/-- A text has no words exactly if it is white space. -/
theorem words_eq_nil_iff (text : List Char) :
    words text = [] ↔ text.all isBlank = true := by
  induction text with
  | nil => simp
  | cons char rest ih =>
      cases blank : isBlank char with
      | true => simp [words_cons_blank blank, blank, ih]
      | false => simp [words_cons_ne_nil blank, blank]

/-- A word holds a character, and none that is white space. -/
def IsWord (word : List Char) : Prop :=
  word ≠ [] ∧ ∀ char ∈ word, isBlank char = false

/-! ## The last word -/

/-- White space at the end of a text is no part of a word. -/
theorem words_append_blanks (text : List Char) {tail : List Char}
    (blank : ∀ char ∈ tail, isBlank char = true) :
    words (text ++ tail) = words text := by
  cases tail with
  | nil => rw [List.append_nil]
  | cons char rest =>
      rcases List.forall_mem_cons.mp blank with ⟨first, others⟩
      have none : words rest = [] :=
        (words_eq_nil_iff rest).mpr (List.all_eq_true.mpr others)
      rw [words_append_blank first, none, List.append_nil]

/-- A text that is empty or ends with white space, so that a word may follow. -/
def EndsBlank (front : List Char) : Prop :=
  front = [] ∨ ∃ init char, front = init ++ [char] ∧ isBlank char = true

/-- A word that stands behind white space is the last word. -/
theorem words_append_word {front word : List Char} (ends : EndsBlank front)
    (isWord : IsWord word) :
    words (front ++ word) = words front ++ [word] := by
  have single := words_eq_singleton isWord.1 isWord.2
  rcases ends with rfl | ⟨init, char, rfl, blank⟩
  · rw [List.nil_append, single, words_nil, List.nil_append]
  · rw [List.append_assoc, List.singleton_append,
      words_append_blank blank, single, words_append_blank blank, words_nil,
      List.append_nil]

/-- The text in front of the last word. -/
def beforeLast (text : List Char) : List Char :=
  (text.rdropWhile isBlank).rdropWhile (fun char => !isBlank char)

/-- The text with another word in the place of the last. -/
def replaceLast (word text : List Char) : List Char :=
  beforeLast text ++ word ++ text.rtakeWhile isBlank

theorem endsBlank_beforeLast (text : List Char) :
    EndsBlank (beforeLast text) := by
  by_cases none : beforeLast text = []
  · exact Or.inl none
  · have last : ¬ (!isBlank ((beforeLast text).getLast none)) = true :=
      List.rdropWhile_last_not _ _ none
    refine Or.inr ⟨_, _, (List.dropLast_concat_getLast none).symm, ?_⟩
    simpa using last

theorem isBlank_of_mem_rtakeWhile {text : List Char} :
    ∀ char ∈ text.rtakeWhile isBlank, isBlank char = true :=
  fun _ member => List.mem_rtakeWhile_imp member

/--
A text with words is the text in front of the last word, this word, and white
space.
-/
theorem exists_last_word {text : List Char} (some : words text ≠ []) :
    ∃ last, IsWord last ∧ text = beforeLast text ++ last ++
      text.rtakeWhile isBlank := by
  let visible := text.rdropWhile isBlank
  refine ⟨visible.rtakeWhile (fun char => !isBlank char), ⟨?_, ?_⟩, ?_⟩
  · intro none
    have nonempty : visible ≠ [] := by
      intro blank
      have all := List.rdropWhile_eq_nil_iff.mp blank
      exact some ((words_eq_nil_iff text).mpr (List.all_eq_true.mpr all))
    have notBlank := List.rdropWhile_last_not _ _ nonempty
    have blank := List.rtakeWhile_eq_nil_iff.mp none nonempty
    simp only [Bool.not_eq_true', Bool.not_eq_false] at blank
    exact notBlank blank
  · intro char member
    simpa using List.mem_rtakeWhile_imp member
  · rw [beforeLast, List.rdropWhile_append_rtakeWhile,
      List.rdropWhile_append_rtakeWhile]

/-- The words in front of the last word are those of the text in front of it. -/
theorem words_beforeLast {text : List Char} (some : words text ≠ []) :
    words (beforeLast text) = (words text).dropLast := by
  rcases exists_last_word some with ⟨last, isLast, whole⟩
  have all : words text = words (beforeLast text) ++ [last] := by
    conv_lhs => rw [whole]
    rw [words_append_blanks _ isBlank_of_mem_rtakeWhile,
      words_append_word (endsBlank_beforeLast text) isLast]
  rw [all, List.dropLast_concat]

/--
In front of the last of several words there are a character and white space.
-/
theorem beforeLast_of_several {text : List Char}
    (several : (words text).dropLast ≠ []) :
    2 ≤ (beforeLast text).length ∧ ∃ char ∈ beforeLast text,
      isBlank char = true := by
  have some : words text ≠ [] := by
    intro none
    rw [none] at several
    exact several rfl
  rw [← words_beforeLast some] at several
  rcases endsBlank_beforeLast text with none | ⟨init, char, split, blank⟩
  · rw [none] at several
    exact absurd words_nil several
  · rw [split, words_append_blanks init (by simpa using blank)] at several
    have nonempty : init ≠ [] := by
      rintro rfl
      exact several words_nil
    have positive := List.length_pos_of_ne_nil nonempty
    rw [split, List.length_append, List.length_singleton]
    exact ⟨by omega, char, by simp, blank⟩

/-- Replacing the last word leaves the other words as they are. -/
theorem words_replaceLast {text word : List Char} (some : words text ≠ [])
    (isWord : IsWord word) :
    words (replaceLast word text) = (words text).dropLast ++ [word] := by
  rw [replaceLast, words_append_blanks _ isBlank_of_mem_rtakeWhile,
    words_append_word (endsBlank_beforeLast text) isWord, words_beforeLast some]

/-! ## Words written out -/

/-- Words written out, with a space between any two. -/
def spaced (pieces : List (List Char)) : List Char :=
  [' '].intercalate pieces

@[simp]
theorem spaced_singleton (piece : List Char) : spaced [piece] = piece := by
  simp [spaced]

theorem spaced_cons {rest : List (List Char)} (more : rest ≠ [])
    (first : List Char) :
    spaced (first :: rest) = first ++ ' ' :: spaced rest := by
  obtain ⟨second, others, rfl⟩ := List.exists_cons_of_ne_nil more
  simp [spaced]

theorem mem_spaced {pieces : List (List Char)} {char : Char}
    (member : char ∈ spaced pieces) :
    char = ' ' ∨ ∃ piece ∈ pieces, char ∈ piece := by
  induction pieces with
  | nil => cases member
  | cons first rest ih =>
      by_cases none : rest = []
      · rw [none, spaced_singleton] at member
        exact Or.inr ⟨first, by simp, member⟩
      · rw [spaced_cons none, List.mem_append, List.mem_cons] at member
        rcases member with inFirst | space | later
        · exact Or.inr ⟨first, by simp, inFirst⟩
        · exact Or.inl space
        · rcases ih later with space | ⟨piece, inRest, inPiece⟩
          · exact Or.inl space
          · exact Or.inr ⟨piece, List.mem_cons_of_mem first inRest, inPiece⟩

/-- Words that are written out are read back. -/
theorem words_spaced {pieces : List (List Char)}
    (every : ∀ piece ∈ pieces, IsWord piece) :
    words (spaced pieces) = pieces := by
  induction pieces with
  | nil => rfl
  | cons first rest ih =>
      obtain ⟨⟨nonempty, whole⟩, others⟩ := List.forall_mem_cons.mp every
      by_cases none : rest = []
      · rw [none, spaced_singleton, words_eq_singleton nonempty whole]
      · rw [spaced_cons none, words_append_cons nonempty whole (by decide),
          ih others]

/-- Words that are written out start and end with characters of theirs. -/
theorem spaced_ends {pieces : List (List Char)} (some : pieces ≠ [])
    (every : ∀ piece ∈ pieces, IsWord piece) :
    (∃ char rest, spaced pieces = char :: rest ∧ isBlank char = false) ∧
      ∃ rest char, spaced pieces = rest ++ [char] ∧ isBlank char = false := by
  induction pieces with
  | nil => exact absurd rfl some
  | cons first rest ih =>
      obtain ⟨⟨nonempty, whole⟩, others⟩ := List.forall_mem_cons.mp every
      obtain ⟨head, tail, starts⟩ := List.exists_cons_of_ne_nil nonempty
      have headVisible := whole head (by simp [starts])
      by_cases none : rest = []
      · rw [none, spaced_singleton]
        refine ⟨⟨head, tail, starts, headVisible⟩, first.dropLast,
          first.getLast nonempty, ?_, ?_⟩
        · exact (List.dropLast_concat_getLast nonempty).symm
        · exact whole _ (List.getLast_mem nonempty)
      · obtain ⟨-, init, last, ends, visible⟩ := ih none others
        rw [spaced_cons none]
        exact ⟨⟨head, tail ++ ' ' :: spaced rest, by simp [starts],
          headVisible⟩, first ++ ' ' :: init, last, by simp [ends], visible⟩

/-- Words that are written out have no white space at the ends. -/
theorem trim_spaced {pieces : List (List Char)}
    (every : ∀ piece ∈ pieces, IsWord piece) :
    trim (spaced pieces) = spaced pieces := by
  by_cases none : pieces = []
  · rw [none]
    rfl
  · obtain ⟨⟨first, tail, starts, firstVisible⟩, init, last, ends,
        lastVisible⟩ :=
      spaced_ends none every
    have kept : (spaced pieces).dropWhile isBlank = spaced pieces := by
      simp [starts, firstVisible]
    rw [trim, kept, ends]
    simp [lastVisible]

end Asm24.Text
