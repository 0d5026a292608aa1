import Asm24.Proofs.Block

/-!
# Changing the last block of a section

`withLastBody` gives the last block of a section another body and leaves all
other lines as they are.  If the new body has no headers, the section has this
body then, and the other sections have the bodies that they had.
-/

namespace Asm24.Assembly

/-- The lines with another body in the last block of a section. -/
def withLastBody (owner : Section) (change : List Line → List Line) :
    List Line → List Line
  | [] => []
  | line :: rest =>
      if line.IsHeaderOf owner ∧ lastBody? owner rest = none then
        line :: (change (untilHeader rest) ++
          rest.dropWhile (fun line => !line.isHeader))
      else
        line :: withLastBody owner change rest

theorem withLastBody_eq_self {owner : Section} {lines : List Line}
    (none : lastBody? owner lines = none) (change : List Line → List Line) :
    withLastBody owner change lines = lines := by
  induction lines with
  | nil => rfl
  | cons line rest ih =>
      rw [lastBody?, Option.or_eq_none_iff] at none
      rcases none with ⟨noneInRest, notHere⟩
      have notHeader : ¬ line.IsHeaderOf owner := by
        intro header
        rw [if_pos header] at notHere
        cases notHere
      rw [withLastBody, if_neg (fun both => notHeader both.1), ih noneInRest]

theorem isHeader_of_mem_untilHeader {lines : List Line} :
    ∀ line ∈ untilHeader lines, line.isHeader = false := by
  intro line member
  simpa using List.mem_takeWhile_imp member

theorem untilHeader_dropWhile (lines : List Line) :
    untilHeader (lines.dropWhile (fun line => !line.isHeader)) = [] := by
  induction lines with
  | nil => rfl
  | cons line rest ih =>
      by_cases header : line.isHeader = true
      · rw [List.dropWhile_cons_of_neg (by simp [header]),
          untilHeader_cons_of_header header]
      · rw [List.dropWhile_cons_of_pos (by simp [header]), ih]

/-- The last block of a section, with the lines before and after it. -/
theorem exists_last_block {owner : Section} {lines body : List Line}
    (found : lastBody? owner lines = some body) :
    ∃ before, ∃ block : SourceBlock owner, ∃ after,
      block.body = body ∧ untilHeader after = [] ∧
        lastBody? owner after = none ∧
      lines = before ++ (block.lines ++ after) ∧
      ∀ change, withLastBody owner change lines =
        before ++ (block.header :: change body ++ after) := by
  induction lines with
  | nil => cases found
  | cons line rest ih =>
      rw [lastBody?] at found
      cases inRest : lastBody? owner rest with
      | some later =>
          rw [inRest] at found
          cases found
          rcases ih inRest with
            ⟨before, block, after, isBody, starts, last, split, changed⟩
          refine ⟨line :: before, block, after, isBody, starts, last, ?_, ?_⟩
          · rw [List.cons_append, ← split]
          · intro change
            rw [withLastBody, if_neg (by simp [inRest]), changed]
            rfl
      | none =>
          rw [inRest, Option.none_or] at found
          by_cases header : line.IsHeaderOf owner
          · rw [if_pos header] at found
            cases found
            have starts := untilHeader_dropWhile rest
            have cut :
                untilHeader rest ++ rest.dropWhile
                  (fun line => !line.isHeader) = rest :=
              List.takeWhile_append_dropWhile
            have last :
                lastBody? owner (rest.dropWhile (fun line => !line.isHeader)) =
                  none := by
              rw [← cut, lastBody?_append owner _ starts,
                Option.or_eq_none_iff] at inRest
              exact inRest.1
            refine ⟨[],
              ⟨line, untilHeader rest, header, isHeader_of_mem_untilHeader⟩, _,
              rfl, starts, last, ?_, ?_⟩
            · rw [List.nil_append, SourceBlock.lines, List.cons_append, cut]
            · intro change
              rw [withLastBody, if_pos ⟨header, inRest⟩, List.nil_append,
                List.cons_append]
          · rw [if_neg header] at found
            cases found

theorem isHeader_of_mem_lastBody? {owner : Section} {lines body : List Line}
    (found : lastBody? owner lines = some body) :
    ∀ line ∈ body, line.isHeader = false := by
  rcases exists_last_block found with ⟨before, block, after, rfl, -⟩
  exact block.inner

section Changed

variable {owner : Section} {lines : List Line} {change : List Line → List Line}
  (inner : ∀ body, lastBody? owner lines = some body →
    ∀ line ∈ change body, line.isHeader = false)

include inner

/-- The change replaces the last block of the section by another block of it. -/
theorem exists_changed_block {body : List Line}
    (found : lastBody? owner lines = some body) :
    ∃ before, ∃ block changed : SourceBlock owner, ∃ after,
      changed.body = change body ∧ untilHeader after = [] ∧
        lastBody? owner after = none ∧
      lines = before ++ (block.lines ++ after) ∧
      withLastBody owner change lines = before ++ (changed.lines ++ after) := by
  rcases exists_last_block found with
    ⟨before, block, after, -, starts, last, split, changed⟩
  exact ⟨before, block, ⟨block.header, change body, block.opens,
    inner body found⟩, after, rfl, starts, last, split, changed change⟩

/--
The section has the changed body, and the other sections the bodies that they
had.
-/
theorem lastBody?_withLastBody (wanted : Section) :
    lastBody? wanted (withLastBody owner change lines) =
      if owner = wanted then
        (lastBody? owner lines).map change
      else
        lastBody? wanted lines := by
  cases found : lastBody? owner lines with
  | none =>
      rw [withLastBody_eq_self found]
      by_cases same : owner = wanted
      · rw [if_pos same, ← same, found, Option.map_none]
      · rw [if_neg same]
  | some body =>
      rcases exists_changed_block inner found with
        ⟨before, block, changed, after, isBody, starts, last, split, whole⟩
      rw [whole, lastBody?_append wanted before
        (changed.untilHeader_lines after),
        changed.lastBody?_lines_append wanted starts]
      by_cases same : owner = wanted
      · subst same
        rw [last, if_pos rfl, if_pos rfl, isBody]
        rfl
      · rw [if_neg same, if_neg same, split,
          lastBody?_append wanted before (block.untilHeader_lines after),
          block.lastBody?_lines_append wanted starts, if_neg same]

theorem lastBody_withLastBody_self (nil : change [] = []) :
    lastBody owner (withLastBody owner change lines) =
      change (lastBody owner lines) := by
  rw [lastBody, lastBody?_withLastBody inner, if_pos rfl, lastBody]
  cases lastBody? owner lines with
  | none => exact nil.symm
  | some body => rfl

theorem lastBody_withLastBody_of_ne {wanted : Section}
    (other : owner ≠ wanted) :
    lastBody wanted (withLastBody owner change lines) =
      lastBody wanted lines := by
  rw [lastBody, lastBody?_withLastBody inner, if_neg other, lastBody]

/-- Lines that have sections have sections after the change. -/
theorem exists_ofLines_withLastBody {source : String}
    (read : ∃ sections, Sections.ofLines source lines = .ok sections) :
    ∃ sections, Sections.ofLines source (withLastBody owner change lines) =
      .ok sections := by
  cases found : lastBody? owner lines with
  | none => rwa [withLastBody_eq_self found]
  | some body =>
      rcases exists_changed_block inner found with
        ⟨before, block, changed, after, -, -, -, split, whole⟩
      rw [split, Sections.exists_ofLines_iff,
        untilHeader_append before (block.untilHeader_lines after),
        headersOpen_append_iff, headersOpen_append_iff] at read
      rw [whole, Sections.exists_ofLines_iff,
        untilHeader_append before (changed.untilHeader_lines after),
        headersOpen_append_iff, headersOpen_append_iff]
      rcases read with ⟨lead, inBefore, -, inAfter⟩
      exact ⟨lead, inBefore, changed.headersOpen, inAfter⟩

end Changed

end Asm24.Assembly
