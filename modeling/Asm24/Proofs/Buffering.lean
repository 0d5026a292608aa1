import Asm24.Proofs.Delivery
import Asm24.Proofs.Tree

/-!
# Files written through a buffer

The file of an output is made in a directory that is made if need be, and what
leaves the buffer is its content.  So a file whose producer succeeds holds all
parts, however they are cut, and one whose producer fails holds the parts up to
what was collected.
-/

namespace Asm24.Files

/--
The tree in which a file was made for an output: its directory is there, and it
is empty.
-/
def created (tree : FileTree) (path : String) : Except FileError FileTree :=
  match prepared tree path with
  | (.ok (), made) => made.replace path []
  | (.error error, _) => .error error

/-- A file that can be made is given any content, and has it when it is read. -/
theorem exists_replace {tree : FileTree} {path : String}
    (creatable : (created tree path).isOk = true) (content : List UInt8) :
    ∃ made final, prepared tree path = (.ok (), made) ∧
      made.replace path content = .ok final ∧
      final.read path = .ok content := by
  obtain ⟨empty, opened⟩ : ∃ empty, created tree path = .ok empty := by
    cases outcome : created tree path with
    | error error => simp [outcome, Except.isOk, Except.toBool] at creatable
    | ok empty => exact ⟨empty, rfl⟩
  rw [created] at opened
  rcases madeDirectories : prepared tree path with ⟨error | ⟨⟩, made⟩
  · rw [madeDirectories] at opened
    cases opened
  · rw [madeDirectories] at opened
    rcases FileTree.replace_eq_ok_iff.mp opened with ⟨place, resolved, free, -⟩
    have filled :
        made.replace path content = .ok (made.put place (.file content)) :=
      FileTree.replace_eq_ok_iff.mpr ⟨place, resolved, free, rfl⟩
    exact ⟨made, _, rfl, filled, (FileTree.spares_of_replace filled).2⟩

/--
A file that can be made holds all parts of the output when their producer
succeeds.  When the producer fails, its error is returned, and the file holds a
prefix of the output in which at most 4096 bytes are missing.  It makes no
difference how the output is cut into parts.
-/
theorem written_whole_or_truncated {failure : Type} {tree : FileTree}
    {path : String} (creatable : (created tree path).isOk = true)
    (parts : List (List UInt8)) :
    (∃ final,
      (writeFile path (⟨parts, none⟩ : Production failure) : StateM FileTree _)
        tree = (.ok (), final) ∧ final.read path = .ok parts.flatten) ∧
    (∀ error : failure, ∃ final content lost,
      (writeFile path ⟨parts, some error⟩ : StateM FileTree _) tree =
        (.error (.producer error), final) ∧
      final.read path = .ok content ∧ content ++ lost = parts.flatten ∧
      lost.length ≤ 4096) ∧
    ∀ others : List (List UInt8), others.flatten = parts.flatten →
      (writeFile path (⟨others, none⟩ : Production failure) : StateM FileTree _)
          tree =
        (writeFile path (⟨parts, none⟩ : Production failure) :
          StateM FileTree _) tree := by
  refine ⟨?_, ?_, ?_⟩
  · rcases exists_replace creatable parts.flatten with
      ⟨made, final, prepared, replaced, read⟩
    refine ⟨final, ?_, read⟩
    simp only [writeFile_run, prepared, content_of_success, replaced]
  · intro error
    rcases exists_lost_of_failure parts error with ⟨lost, whole, few⟩
    rcases exists_replace creatable
      (Production.content ⟨parts, some error⟩) with
      ⟨made, final, prepared, replaced, read⟩
    refine ⟨final, _, lost, ?_, read, whole, few⟩
    simp only [writeFile_run, prepared, replaced]
  · intro others same
    simp only [writeFile_run, content_of_success, same]

/-- A directory with a file in it. -/
def cabinet : FileTree where
  workingDirectory := []
  entries := [(["out"], .directory), (["out", "log"], .file [9, 9, 9, 9])]

/-- An older file is replaced, also by a producer that fails. -/
theorem cabinet_written :
    (created cabinet "out/log").isOk = true ∧
    (∃ final,
      (writeFile "out/log" (⟨[[1, 2], [3]], none⟩ : Production String) :
        StateM FileTree _)
          cabinet = (.ok (), final) ∧ final.read "out/log" = .ok [1, 2, 3]) ∧
    ∃ final content lost,
      (writeFile "out/log" ⟨[[1, 2], [3]], some "full"⟩ : StateM FileTree _)
        cabinet = (.error (.producer "full"), final) ∧
      final.read "out/log" = .ok content ∧ content ++ lost = [1, 2, 3] ∧
        lost.length ≤ 4096 := by
  have creatable : (created cabinet "out/log").isOk = true := by decide +kernel
  obtain ⟨whole, failed, -⟩ :=
    @written_whole_or_truncated String cabinet "out/log" creatable [[1, 2], [3]]
  exact ⟨creatable, whole, failed "full"⟩

end Asm24.Files
