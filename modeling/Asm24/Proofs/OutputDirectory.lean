import Asm24.Proofs.OutputPath

/-!
# Directories of outputs

The clean form of a path keeps its names as they are entered, so cleaning it
again changes nothing.  What is entered last is the name of the output, whatever
the directory above it is written like; the path of an output therefore has the
clean form of its directory above its name.

A path is taken apart into what stands up to its last slash, the start of its
last name and the ending of this name.  Every path has these parts, and the name
of an output has the same start.
-/

namespace Asm24.Files.Path

/-! ## Entered names -/

/--
Names that were entered, from the last to the first.  Steps upwards stand before
all other names, and only a relative path has them.
-/
inductive Entered (absolute : Bool) : List (List Char) → Prop where
  | start : Entered absolute []
  | up {entered : List (List Char)} (relative : absolute = false)
      (before : Entered absolute entered)
      (ups : ∀ name ∈ entered, name = ['.', '.']) :
      Entered absolute (['.', '.'] :: entered)
  | name {name : List Char} {entered : List (List Char)} (isName : IsName name)
      (before : Entered absolute entered) : Entered absolute (name :: entered)

namespace Entered

variable {absolute : Bool} {entered : List (List Char)}

/-- Entering one more name keeps the steps upwards in front. -/
theorem enter (before : Entered absolute entered) {name : List Char}
    (inner : '/' ∉ name) :
    Entered absolute (Path.enter absolute entered name) := by
  unfold Path.enter
  split
  case isTrue => exact before
  case isFalse visible =>
    rw [not_or] at visible
    split
    case isFalse notUp =>
      exact .name ⟨visible.1, inner, visible.2, notUp⟩ before
    case isTrue up =>
      subst up
      cases before with
      | start =>
          cases absolute with
          | true => exact .start
          | false => exact .up rfl .start (by simp)
      | up relative before ups =>
          dsimp only
          rw [if_pos rfl]
          exact .up relative (.up relative before ups) (by simpa using ups)
      | name isName before =>
          dsimp only
          rw [if_neg isName.notUp]
          exact before

theorem foldl_enter (before : Entered absolute entered)
    {added : List (List Char)} (inner : ∀ name ∈ added, '/' ∉ name) :
    Entered absolute (added.foldl (Path.enter absolute) entered) := by
  induction added generalizing entered with
  | nil => exact before
  | cons name rest ih =>
      obtain ⟨first, others⟩ := List.forall_mem_cons.mp inner
      exact ih (before.enter first) others

/--
Names that were entered are entered again as they are: a step upwards is kept,
because only such steps stand before it.
-/
theorem foldr_enter (names : Entered absolute entered) :
    entered.foldr (fun name known => Path.enter absolute known name) [] =
      entered := by
  induction names with
  | start => rfl
  | name isName before ih => rw [List.foldr_cons, ih, isName.enter]
  | @up entered relative before ups ih =>
      rw [List.foldr_cons, ih]
      cases entered with
      | nil => simp [Path.enter, relative]
      | cons last rest => simp [Path.enter, ups last List.mem_cons_self]

theorem nonempty_inner (names : Entered absolute entered) :
    ∀ name ∈ entered, name ≠ [] ∧ '/' ∉ name := by
  induction names with
  | start => simp
  | up _ _ _ ih => exact List.forall_mem_cons.mpr ⟨by simp, ih⟩
  | name isName _ ih =>
      exact List.forall_mem_cons.mpr ⟨⟨isName.nonempty, isName.inner⟩, ih⟩

end Entered

theorem entered_cleanNames (path : List Char) :
    Entered (isAbsolute path) (cleanNames path).reverse := by
  rw [cleanNames, List.reverse_reverse]
  exact Entered.start.foldl_enter fun name member =>
    separates_slash_iff.mp (Text.separates_of_mem_split name member)

/-! ## Clean forms -/

theorem isAbsolute_iff {path : List Char} :
    isAbsolute path = true ↔ path.head? = some '/' := by
  unfold isAbsolute
  split
  case h_1 => simp
  case h_2 other =>
    simp only [Bool.false_eq_true, false_iff]
    intro slash
    rcases List.head?_eq_some_iff.mp slash with ⟨rest, whole⟩
    exact other rest whole

theorem isAbsolute_append {path : List Char} (nonempty : path ≠ [])
    (more : List Char) :
    isAbsolute (path ++ more) = isAbsolute path := by
  rw [Bool.eq_iff_iff, isAbsolute_iff, isAbsolute_iff,
    List.head?_append_of_ne_nil _ nonempty]

section Joined

variable {absolute : Bool} {known : List (List Char)}
  (entered : Entered absolute known.reverse)

include entered

/-- The names of a clean path are entered one by one. -/
theorem foldl_enter_joined :
    (names (['/'].intercalate known)).foldl (enter absolute) [] =
      known.reverse := by
  by_cases none : known = []
  · subst none
    rfl
  · have apart : ∀ name ∈ known, ∀ char ∈ name, (char == '/') = false :=
      fun name member =>
      separates_slash_iff.mpr (entered.nonempty_inner name
        (List.mem_reverse.mpr member)).2
    have again := entered.foldr_enter
    rw [List.foldr_reverse] at again
    rw [names, Text.split_intercalate (by decide) none apart, again]

theorem isAbsolute_joined : isAbsolute (['/'].intercalate known) = false := by
  cases known with
  | nil => rfl
  | cons name rest =>
      have proper := entered.nonempty_inner name (by simp)
      have first : isAbsolute name = false := by
        rw [Bool.eq_false_iff, ne_eq, isAbsolute_iff]
        exact fun slash => proper.2 (List.mem_of_head? slash)
      cases rest with
      | nil => rwa [List.intercalate_singleton]
      | cons second rest =>
          rwa [List.intercalate_cons_cons, List.append_assoc,
            isAbsolute_append proper.1]

theorem joined_eq_nil_iff : ['/'].intercalate known = [] ↔ known = [] := by
  constructor
  · intro empty
    cases known with
    | nil => rfl
    | cons name rest =>
        have proper := entered.nonempty_inner name (by simp)
        cases rest with
        | nil => exact absurd (by simpa using empty) proper.1
        | cons second rest => simp [List.intercalate_cons_cons] at empty
  · rintro rfl
    rfl

end Joined

theorem clean_eq (path : List Char) :
    clean path =
      if isAbsolute path then '/' :: ['/'].intercalate (cleanNames path)
      else if cleanNames path = [] then ['.']
      else ['/'].intercalate (cleanNames path) := by
  rw [clean]
  simp only [List.isEmpty_iff, joined_eq_nil_iff (entered_cleanNames path)]

/--
The clean form has the names of the path, and starts at the root if the path
does.
-/
theorem cleanNames_clean (path : List Char) :
    isAbsolute (clean path) = isAbsolute path ∧
      cleanNames (clean path) = cleanNames path := by
  have entered := entered_cleanNames path
  have again := foldl_enter_joined entered
  rw [clean_eq]
  split
  case isTrue absolute =>
    refine ⟨absolute.symm, ?_⟩
    rw [absolute] at again
    have root : names ('/' :: ['/'].intercalate (cleanNames path)) =
        [] :: names (['/'].intercalate (cleanNames path)) := rfl
    rw [cleanNames, root, List.foldl_cons]
    change ((names _).foldl (enter true) []).reverse = _
    rw [again, List.reverse_reverse]
  case isFalse relative =>
    rw [Bool.not_eq_true] at relative
    split
    case isTrue none => exact ⟨relative.symm, none.symm⟩
    case isFalse some =>
      have first := isAbsolute_joined entered
      rw [relative] at again
      refine ⟨first.trans relative.symm, ?_⟩
      conv_lhs => rw [cleanNames, first, again]
      rw [List.reverse_reverse]

theorem clean_clean (path : List Char) : clean (clean path) = clean path := by
  obtain ⟨absolute, known⟩ := cleanNames_clean path
  rw [clean_eq (clean path), absolute, known, ← clean_eq]

/-- A slash at the end of a path is not kept. -/
theorem clean_append_slash {path : List Char} (nonempty : path ≠ []) :
    clean (path ++ ['/']) = clean path := by
  have known : cleanNames (path ++ ['/']) = cleanNames path := by
    have last : names (path ++ ['/']) = names path ++ [[]] :=
      Text.split_append_separator (by decide) path []
    rw [cleanNames, last, List.foldl_append, isAbsolute_append nonempty]
    rfl
  rw [clean_eq, known, isAbsolute_append nonempty, ← clean_eq]

/-! ## Last names -/

/--
What may stand in front of a last name: nothing, or a path that ends with a
slash.
-/
def IsFront (front : List Char) : Prop :=
  front = [] ∨ ∃ above, front = above ++ ['/']

section Below

variable {name above : List Char} (isName : IsName name) (nonempty : above ≠ [])

include isName nonempty

theorem IsName.cleanNames_append :
    cleanNames (above ++ '/' :: name) = cleanNames above ++ [name] := by
  rw [cleanNames, isName.names_append, List.foldl_append, List.foldl_cons,
    List.foldl_nil, isName.enter, List.reverse_cons, isAbsolute_append nonempty]
  rfl

/--
Below a directory, a name stands behind a front whose clean form is that of the
directory.  For a directory that has no names the front is empty or a slash.
-/
theorem IsName.exists_front :
    ∃ front, clean (above ++ '/' :: name) = front ++ name ∧ IsFront front ∧
      clean front = clean above := by
  have whole := clean_eq (above ++ '/' :: name)
  have some : ¬ cleanNames above ++ [name] = [] := by simp
  rw [isName.cleanNames_append nonempty, isAbsolute_append nonempty,
    if_neg some] at whole
  have directory := clean_eq above
  by_cases none : cleanNames above = []
  · rw [none, List.nil_append, List.intercalate_singleton] at whole
    rw [none, if_pos rfl] at directory
    cases absolute : isAbsolute above with
    | true =>
        rw [absolute] at whole directory
        exact ⟨['/'], whole, Or.inr ⟨[], rfl⟩, directory.symm⟩
    | false =>
        rw [absolute] at whole directory
        exact ⟨[], whole, Or.inl rfl, directory.symm⟩
  · refine ⟨clean above ++ ['/'], ?_, Or.inr ⟨_, rfl⟩, ?_⟩
    · rw [intercalate_concat none] at whole
      rw [if_neg none] at directory
      rw [whole, directory]
      split <;> simp
    · rw [clean_append_slash (clean_ne_nil above), clean_clean]

end Below

section Front

variable {front name : List Char} (isFront : IsFront front) (inner : '/' ∉ name)

include isFront inner

theorem directory_append : directory (front ++ name) = clean front := by
  rw [directory, List.reverse_append,
    List.dropWhile_append_of_pos (ne_slash_of_mem_reverse inner)]
  rcases isFront with rfl | ⟨above, rfl⟩
  · rfl
  · rw [List.reverse_concat, List.dropWhile_cons_of_neg (by simp),
      List.reverse_cons, List.reverse_reverse]

theorem lastName_append : lastName (front ++ name) = name := by
  have stop : front.reverse.takeWhile (· != '/') = [] := by
    rcases isFront with rfl | ⟨above, rfl⟩
    · rfl
    · rw [List.reverse_concat, List.takeWhile_cons_of_neg (by simp)]
  rw [lastName, List.reverse_append,
    List.takeWhile_append_of_pos (ne_slash_of_mem_reverse inner), stop,
    List.append_nil, List.reverse_reverse]

end Front

/-! ## Extensions -/

/--
The parts of a path: what stands in front of its last name, the start of this
name, and its ending from the last dot on.
-/
structure Parts (path front start ending : List Char) : Prop where
  whole : path = front ++ (start ++ ending)
  isFront : IsFront front
  inner : '/' ∉ start ++ ending
  ending : (ending = [] ∧ '.' ∉ start) ∨ ∃ letters, ending = '.' :: letters ∧
    '.' ∉ letters

theorem exists_last_mem {char : Char} {text : List Char}
    (member : char ∈ text) :
    ∃ before after, text = before ++ char :: after ∧ char ∉ after := by
  obtain ⟨after, before, reversed, apart⟩ :=
    List.eq_append_cons_of_mem (List.mem_reverse.mpr member)
  refine ⟨before.reverse, after.reverse, ?_, by simpa using apart⟩
  simpa using congrArg List.reverse reversed

/-- Every path has parts. -/
theorem exists_parts (path : List Char) :
    ∃ front start ending, Parts path front start ending := by
  obtain ⟨front, name, whole, isFront, inner⟩ :
      ∃ front name, path = front ++ name ∧ IsFront front ∧ '/' ∉ name := by
    by_cases slash : '/' ∈ path
    · rcases exists_last_mem slash with ⟨above, name, whole, inner⟩
      exact ⟨above ++ ['/'], name, by simp [whole], Or.inr ⟨above, rfl⟩, inner⟩
    · exact ⟨[], path, rfl, Or.inl rfl, slash⟩
  by_cases dot : '.' ∈ name
  · rcases exists_last_mem dot with ⟨start, letters, rfl, apart⟩
    exact ⟨front, start, '.' :: letters, whole, isFront, inner,
      Or.inr ⟨letters, rfl, apart⟩⟩
  · rw [← List.append_nil name] at whole inner
    exact ⟨front, name, [], whole, isFront, inner, Or.inl ⟨rfl, dot⟩⟩

/-- The last name is searched from its end for a dot. -/
theorem extension_eq {path tail rest : List Char}
    (reversed : path.reverse = tail ++ rest)
    (plain : ∀ char ∈ tail, (char != '/' && char != '.') = true)
    (stop : rest.takeWhile (fun char => char != '/' && char != '.') = []) :
    extension path = if rest.head? = some '.' then '.' :: tail.reverse
      else [] := by
  rw [extension, reversed, List.takeWhile_append_of_pos plain, stop,
    List.append_nil, List.drop_left]
  split
  case h_1 => simp
  case h_2 other =>
    cases rest with
    | nil => rfl
    | cons first rest =>
        rw [if_neg]
        rintro ⟨⟩
        exact other rest rfl

namespace Parts

variable {path front start ending : List Char}
  (parts : Parts path front start ending)

include parts

theorem extension_eq_ending : extension path = ending := by
  have plain {tail : List Char} (noSlash : '/' ∉ tail) (noDot : '.' ∉ tail) :
      ∀ char ∈ tail.reverse, (char != '/' && char != '.') = true := by
    intro char member
    rw [List.mem_reverse] at member
    simp [ne_of_mem_of_not_mem member noSlash,
      ne_of_mem_of_not_mem member noDot]
  rcases parts with ⟨rfl, isFront, inner, ⟨rfl, noDot⟩ | ⟨letters, rfl, noDot⟩⟩
  · rw [List.append_nil] at inner ⊢
    rcases isFront with rfl | ⟨above, rfl⟩
    · exact extension_eq (List.append_nil _).symm (plain inner noDot) rfl
    · rw [extension_eq List.reverse_append (plain inner noDot) (by simp)]
      simp
  · rw [List.mem_append, List.mem_cons, not_or, not_or] at inner
    have reversed : (front ++ (start ++ '.' :: letters)).reverse =
        letters.reverse ++ '.' :: (front ++ start).reverse := by
      simp
    rw [extension_eq reversed (plain inner.2.2 noDot) (by simp)]
    simp

theorem stem_eq : stem path = front ++ start := by
  have whole := parts.whole
  rw [← List.append_assoc] at whole
  rw [stem, parts.extension_eq_ending, whole, List.length_append,
    Nat.add_sub_cancel, List.take_left]

theorem slash_notMem_start : '/' ∉ start :=
  fun member => parts.inner (List.mem_append_left ending member)

/-- Next to the input, the path of an output has another ending. -/
theorem output_beside (newExtension : List Char) :
    output path [] newExtension = front ++ (start ++ newExtension) := by
  rw [output, parts.stem_eq, List.append_assoc]
  rfl

theorem output_beside_parts {newExtension : List Char}
    (isExtension : IsExtension newExtension) :
    Parts (output path [] newExtension) front start newExtension := by
  rcases isExtension.marked with ⟨letters, marked, -, noDot⟩
  exact ⟨parts.output_beside newExtension, parts.isFront,
    (isExtension.isName parts.slash_notMem_start).inner,
    Or.inr ⟨letters, marked, noDot⟩⟩

/--
In a directory, the path of an output has the same name behind another front.
-/
theorem exists_output_below {newExtension target : List Char}
    (isExtension : IsExtension newExtension) (nonempty : target ≠ []) :
    ∃ above, output path target newExtension =
      above ++ (start ++ newExtension) ∧
      IsFront above ∧ clean above = clean target := by
  have some : ¬ target.isEmpty = true := by simpa using nonempty
  have name : base (stem path ++ newExtension) = start ++ newExtension := by
    rw [parts.stem_eq, base_append isExtension,
      lastName_append parts.isFront parts.slash_notMem_start]
  rw [output, if_neg some, name, join, if_neg some]
  exact (isExtension.isName parts.slash_notMem_start).exists_front nonempty

end Parts

/--
The path of an output has its directory in clean form above its name, and this
name is the last name of the input with its extension swapped.  Next to the
input nothing else is swapped, so the last of several extensions remains.
-/
theorem output_swaps_extension (input : List Char) {newExtension : List Char}
    (isExtension : IsExtension newExtension) :
    (∃ front start ending, Parts input front start ending) ∧
    ∀ front start ending, Parts input front start ending →
      (∀ target, target ≠ [] →
        directory (output input target newExtension) = clean target ∧
          base (output input target newExtension) = start ++ newExtension) ∧
      output input [] newExtension = front ++ (start ++ newExtension) ∧
      ∀ other, output (output input [] newExtension) [] other =
        output input [] other := by
  refine ⟨exists_parts input, ?_⟩
  intro front start ending parts
  refine ⟨?_, parts.output_beside newExtension, ?_⟩
  · intro target nonempty
    obtain ⟨above, whole, isFront, cleaned⟩ :=
      parts.exists_output_below isExtension nonempty
    have isName := isExtension.isName parts.slash_notMem_start
    constructor
    · rw [whole, directory_append isFront isName.inner, cleaned]
    · rw [whole, ← List.append_assoc, base_append isExtension,
        lastName_append isFront parts.slash_notMem_start]
  · intro other
    rw [(parts.output_beside_parts isExtension).output_beside,
      parts.output_beside]

/-- A step upwards at the end of the input becomes a part of a name. -/
theorem output_of_dots :
    IsExtension ".bin".toList ∧
      Parts "a/..".toList "a/".toList ".".toList ".".toList ∧
      directory (output "a/..".toList "x//../..".toList ".bin".toList) =
        clean "x//../..".toList ∧
      base (output "a/..".toList "x//../..".toList ".bin".toList) =
        "..bin".toList ∧
      output (output "a/..".toList [] ".bin".toList) [] ".dsm".toList =
        output "a/..".toList [] ".dsm".toList := by
  have bin : IsExtension ".bin".toList := ⟨⟨['b', 'i', 'n'], by simp⟩, by simp⟩
  have parts : Parts "a/..".toList "a/".toList ".".toList ".".toList :=
    ⟨rfl, Or.inr ⟨['a'], rfl⟩, by simp, Or.inr ⟨[], rfl, by simp⟩⟩
  obtain ⟨below, -, again⟩ :=
    (output_swaps_extension "a/..".toList bin).2 _ _ _ parts
  exact ⟨bin, parts, (below "x//../..".toList (by simp)).1,
    (below "x//../..".toList (by simp)).2, again ".dsm".toList⟩

end Asm24.Files.Path
