import Asm24.Files.Path
import Asm24.Proofs.Words

/-!
# Names of outputs

The path of an output ends with a slash and a name, or is a name alone.  This
name is the last name of the input with another extension.  Cleaning the path
does not change it: no extension leaves a name that is empty or made of dots
only, and other names are entered as they are.
-/

namespace Asm24.Files.Path

/-! ## Names -/

/-- A name that cleaning keeps. -/
structure IsName (name : List Char) : Prop where
  nonempty : name ≠ []
  inner : '/' ∉ name
  notHere : name ≠ ['.']
  notUp : name ≠ ['.', '.']

/-- A dot and letters behind it, none of which is a dot or a slash. -/
structure IsExtension (extension : List Char) : Prop where
  marked : ∃ letters, extension = '.' :: letters ∧ letters ≠ [] ∧ '.' ∉ letters
  inner : '/' ∉ extension

theorem separates_slash_iff {name : List Char} :
    (∀ char ∈ name, (char == '/') = false) ↔ '/' ∉ name := by
  simp only [beq_eq_false_iff_ne]
  constructor
  · intro apart member
    exact apart '/' member rfl
  · intro inner char member
    exact ne_of_mem_of_not_mem member inner

theorem ne_slash_of_mem_reverse {name : List Char} (inner : '/' ∉ name) :
    ∀ char ∈ name.reverse, (char != '/') = true := by
  simpa [bne] using separates_slash_iff.mpr inner

/-- The part of a path behind its last slash. -/
def lastName (path : List Char) : List Char :=
  (path.reverse.takeWhile (· != '/')).reverse

theorem slash_notMem_lastName (path : List Char) : '/' ∉ lastName path := by
  intro member
  have kept := List.mem_takeWhile_imp (List.mem_reverse.mp member)
  simp at kept

/--
Whatever stands before an extension, cleaning keeps the name, since its last
letter is no dot.
-/
theorem IsExtension.isName {extension : List Char}
    (isExtension : IsExtension extension) {start : List Char}
    (inner : '/' ∉ start) : IsName (start ++ extension) := by
  rcases isExtension with ⟨⟨letters, rfl, nonempty, noDot⟩, noSlash⟩
  obtain ⟨front, last, rfl⟩ :=
    (List.eq_nil_or_concat letters).resolve_left nonempty
  have notDots {dots : List Char} (final : dots.getLast? = some '.') :
      start ++ '.' :: front.concat last ≠ dots := by
    rintro rfl
    rw [List.concat_eq_append, ← List.cons_append, ← List.append_assoc,
      List.getLast?_concat, Option.some.injEq] at final
    exact noDot (by simp [final])
  refine ⟨by simp, ?_, notDots rfl, notDots rfl⟩
  rw [List.mem_append, not_or]
  exact ⟨inner, noSlash⟩

theorem base_append {path extension : List Char}
    (isExtension : IsExtension extension) :
    base (path ++ extension) = lastName path ++ extension := by
  have nonempty : extension ≠ [] := by
    rcases isExtension.marked with ⟨letters, rfl, -⟩
    simp
  have whole := ne_slash_of_mem_reverse isExtension.inner
  have noSlashes : (path ++ extension).reverse.dropWhile (· == '/') =
      extension.reverse ++ path.reverse := by
    obtain ⟨last, rest, reversed⟩ :=
      List.exists_cons_of_ne_nil (mt List.reverse_eq_nil_iff.mp nonempty)
    have notSlash := whole last (by simp [reversed])
    rw [bne_iff_ne] at notSlash
    rw [List.reverse_append, reversed, List.cons_append,
      List.dropWhile_cons_of_neg]
    simpa using notSlash
  rw [base, if_neg (by simp [nonempty]), noSlashes]
  split
  case h_1 none => simp [nonempty] at none
  case h_2 =>
    rw [List.takeWhile_append_of_pos whole, List.reverse_append,
      List.reverse_reverse]
    rfl

/-! ## Clean paths -/

theorem intercalate_concat {names : List (List Char)} (nonempty : names ≠ [])
    (name : List Char) :
    ['/'].intercalate (names ++ [name]) = ['/'].intercalate names ++ '/' ::
      name := by
  induction names with
  | nil => cases nonempty rfl
  | cons first rest ih =>
      cases rest with
      | nil => simp [List.intercalate]
      | cons second rest =>
          rw [List.cons_append, List.cons_append, List.intercalate_cons_cons,
            ← List.cons_append, ih (by simp), List.intercalate_cons_cons]
          simp

/-- A path that is a name, or ends with a slash and a name. -/
inductive EndsWith (name : List Char) : List Char → Prop where
  | alone : EndsWith name name
  | below (front : List Char) : EndsWith name (front ++ '/' :: name)

theorem endsWith_intercalate (names : List (List Char)) (name : List Char) :
    EndsWith name (['/'].intercalate (names ++ [name])) := by
  by_cases nonempty : names = []
  · rw [nonempty, List.nil_append, List.intercalate_singleton]
    exact .alone
  · rw [intercalate_concat nonempty]
    exact .below _

theorem EndsWith.cons_slash {name path : List Char}
    (ends : EndsWith name path) :
    EndsWith name ('/' :: path) := by
  cases ends with
  | alone => exact .below []
  | below front => exact .below ('/' :: front)

theorem EndsWith.ne_nil {name path : List Char} (nonempty : name ≠ [])
    (ends : EndsWith name path) : path ≠ [] := by
  cases ends with
  | alone => exact nonempty
  | below => simp

theorem EndsWith.getLast?_eq {name path : List Char} (nonempty : name ≠ [])
    (ends : EndsWith name path) : path.getLast? = name.getLast? := by
  cases ends with
  | alone => rfl
  | below front =>
      obtain ⟨init, last, rfl⟩ :=
        (List.eq_nil_or_concat name).resolve_left nonempty
      rw [List.concat_eq_append, List.getLast?_concat, ← List.cons_append,
        ← List.append_assoc, List.getLast?_concat]

section Name

variable {name : List Char} (isName : IsName name)

include isName

theorem IsName.names_eq : names name = [name] :=
  Text.split_eq_singleton (separates_slash_iff.mpr isName.inner)

theorem IsName.names_append (directory : List Char) :
    names (directory ++ '/' :: name) = names directory ++ [name] := by
  rw [← isName.names_eq]
  exact Text.split_append_separator (by decide) directory name

theorem IsName.enter (absolute : Bool) (entered : List (List Char)) :
    enter absolute entered name = name :: entered := by
  simp [Path.enter, isName.nonempty, isName.notHere, isName.notUp]

/-- Cleaning keeps a name at the end of a path. -/
theorem IsName.endsWith_clean (directory : List Char) :
    EndsWith name (clean (directory ++ '/' :: name)) := by
  let absolute := isAbsolute (directory ++ '/' :: name)
  have cleaned : cleanNames (directory ++ '/' :: name) =
      ((names directory).foldl (Path.enter absolute) []).reverse ++ [name] := by
    rw [cleanNames, isName.names_append, List.foldl_append, List.foldl_cons,
      List.foldl_nil, isName.enter, List.reverse_cons]
  have ends :=
    endsWith_intercalate ((names directory).foldl (Path.enter absolute)
      []).reverse name
  rw [← cleaned] at ends
  rw [clean]
  split
  · exact ends.cons_slash
  · rw [if_neg (by simpa using ends.ne_nil isName.nonempty)]
    exact ends

end Name

theorem clean_ne_nil (path : List Char) : clean path ≠ [] := by
  rw [clean]
  split
  case isTrue => simp
  case isFalse =>
    split
    case isTrue => simp
    case isFalse some => simpa using some

theorem endsWith_output {input directory extension : List Char}
    (nonempty : directory ≠ []) (isExtension : IsExtension extension) :
    EndsWith (lastName (stem input) ++ extension)
      (output input directory extension) := by
  have isName := isExtension.isName (slash_notMem_lastName (stem input))
  rw [output, if_neg (by simpa using nonempty), base_append isExtension, join,
    if_neg (by simpa using nonempty)]
  exact isName.endsWith_clean directory

end Asm24.Files.Path
