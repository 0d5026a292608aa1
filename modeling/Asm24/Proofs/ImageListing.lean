import Asm24.Proofs.Canonical
import Mathlib.Data.List.DropRight

/-!
# Listings of images

A program can be listed from its words or from its image.  The image holds zeros
behind the program, which are listed as stops, and it does not tell them from
stops of the program itself.  So the listing of the whole image has more stops
at its end than that of the program, and the listing of the image without the
zeros at its end has none there.

Zeros are dropped from words and stops from lines of text.  The two agree since
the words of programs have distinct texts: other words than zero are shown as a
stop as well, but none that a program can hold.
-/

namespace Asm24.Assembly

open Asm24.Machine
open Asm24.Proofs
open Asm24.Text (linesOf terminated linesOf_terminated terminated_append)

/-! ## Listings line by line -/

theorem disassembleFrom_eq_ok_iff {index : Nat} {words : List Word}
    {texts : List String} :
    disassembleFrom index words = .ok texts ↔
      words.map disassemble = texts.map .ok := by
  induction words generalizing index texts with
  | nil => cases texts <;> simp [disassembleFrom]
  | cons word rest ih =>
      rw [disassembleFrom]
      cases first : disassemble word with
      | error cause => cases texts <;> simp [first]
      | ok shown =>
          simp only [bind_eq_ok_iff, ih, pure_eq_ok_iff]
          constructor
          · rintro ⟨others, same, rfl⟩
            simp [first, same]
          · intro same
            cases texts with
            | nil => simp at same
            | cons text others =>
                simp only [List.map_cons, first, List.cons.injEq,
                  Except.ok.injEq] at same
                rcases same with ⟨rfl, same⟩
                exact ⟨others, same, rfl⟩

/-- A listing has one line for each word, which is the text of the word. -/
theorem listing_eq_ok_iff {words : List Word} {text : String} :
    listing words = .ok text ↔
      ∃ lines, words.map disassemble = lines.map .ok ∧
        terminated lines = text := by
  have lines (texts : List String) :
      words.map disassemble = texts.map .ok ↔
        disassembleAll words = .ok texts :=
    disassembleFrom_eq_ok_iff.symm
  simp only [lines]
  rw [listing_eq]
  cases disassembleAll words with
  | error error => simp [Except.map]
  | ok texts => simp [Except.map]

/-! ## Lines at the end of a text -/

/-- The text without all lines at its end that are the given one. -/
def withoutFinal (line text : String) : String :=
  terminated ((linesOf text).rdropWhile (· == line))

/--
Dropping from the end commutes with a map that carries one test to the other.
-/
theorem map_rdropWhile {value result : Type} {convert : value → result}
    {drops : value → Bool} {dropsResult : result → Bool} {values : List value}
    (agree : ∀ value ∈ values, dropsResult (convert value) = drops value) :
    (values.rdropWhile drops).map convert =
      (values.map convert).rdropWhile dropsResult := by
  induction values using List.reverseRecOn with
  | nil => rfl
  | append_singleton init last ih =>
      rw [List.forall_mem_append, List.forall_mem_singleton] at agree
      rw [List.map_append, List.map_singleton, List.rdropWhile_concat,
        List.rdropWhile_concat, agree.2, apply_ite (List.map convert),
        ih agree.1, List.map_append, List.map_singleton]

/-! ## Stops -/

/--
The words of programs have distinct texts, since the program of a text has one
word.
-/
theorem IsStatic.eq_of_disassemble {left right : Word}
    (leftStatic : IsStatic left) (rightStatic : IsStatic right)
    (same : disassemble left = disassemble right) :
    left = right := by
  rcases leftStatic.exists_source with ⟨text, shown, again⟩
  rcases rightStatic.exists_source with ⟨other, otherShown, otherAgain⟩
  rw [shown, otherShown] at same
  cases same
  rcases again "" with ⟨program, assembled, words⟩
  rcases otherAgain "" with ⟨otherProgram, otherAssembled, otherWords⟩
  rw [assembled] at otherAssembled
  cases otherAssembled
  rw [words] at otherWords
  exact (List.cons.inj otherWords).1

theorem isStatic_zero : IsStatic 0 := by
  have noFlags : Supports .don .none := by
    intro flag member
    cases flag <;> cases member
  refine ⟨ofRegisters .don .none [], .registers noFlags rfl (by simp), ?_, rfl⟩
  rintro label ⟨-, same⟩
  cases same

/-- Among the words of programs, only zero is shown as a stop. -/
theorem IsStatic.disassemble_eq_don_iff {word : Word} (static : IsStatic word) :
    disassemble word = .ok "DON" ↔ word = 0 := by
  have stop : disassemble 0 = .ok "DON" := by decide
  constructor
  · intro shown
    exact static.eq_of_disassemble isStatic_zero (shown.trans stop.symm)
  · rintro rfl
    exact stop

/--
Dropping the zeros at the end of words drops the stops at the end of their
lines.
-/
theorem listing_trimTrailing {words : List Word} {lines : List String}
    (static : ∀ word ∈ words, IsStatic word)
    (shown : words.map disassemble = lines.map .ok) :
    (Image.trimTrailing words).map disassemble =
      (lines.rdropWhile (· == "DON")).map .ok := by
  let isStop (result : Except DecodeError String) : Bool :=
    decide (result = .ok "DON")
  have zeros : ∀ word ∈ words, isStop (disassemble word) = (word == 0) := by
    intro word member
    simp only [isStop, (static word member).disassemble_eq_don_iff]
    rfl
  have stops : ∀ line ∈ lines, isStop (.ok line) = (line == "DON") := by
    intro line _
    simp only [isStop, Except.ok.injEq]
    rfl
  change (words.rdropWhile (· == 0)).map disassemble = _
  rw [map_rdropWhile zeros, shown, map_rdropWhile stops]

/-- Zeros are listed as stops. -/
theorem map_disassemble_zeros (count : Nat) :
    (List.replicate count (0 : Word)).map disassemble =
      (List.replicate count "DON").map .ok := by
  have stop : disassemble 0 = .ok "DON" := by decide
  rw [List.map_replicate, List.map_replicate, stop]

/-! ## The two listings -/

/--
The image of a program is read back.  The listing of what is read, without the
zeros at its end, is the listing of the program without the stops at its end;
the listing of the whole image is the listing of the program with a stop for
each word of the region that the program leaves free.
-/
theorem listings_of_image {source text : String} {program : Program}
    (assembled : assemble source text = .ok program) :
    ∃ image region shown,
      Image.write program.words = .ok image ∧ Image.read image = .ok region ∧
      listing program.words = .ok shown ∧
      listing (Image.trimTrailing region) = .ok (withoutFinal "DON" shown) ∧
      listing region =
        .ok (shown ++ terminated
          (List.replicate (0x9FF - program.words.length) "DON")) := by
  rcases words_of_assembleLines assembled with ⟨fits, static⟩
  have narrow : ∀ word ∈ program.words, word.toNat < 2 ^ 24 := by
    intro word member
    rcases static word member with ⟨instruction, -, -, encoded⟩
    exact (Instruction.decode_of_encode encoded).1
  rcases exists_disassembleFrom static 0 with ⟨lines, disassembled, relists⟩
  have shown := disassembleFrom_eq_ok_iff.mp disassembled
  have whole : ∀ line ∈ lines, '\n' ∉ line.toList := by
    intro line member
    rcases exists_related relists line member with ⟨word, relistsWord⟩
    exact relistsWord.1
  refine ⟨_, Image.region program.words, terminated lines,
    Image.write_eq_ok fits, Image.read_layout fits narrow,
    listing_eq_ok_iff.mpr ⟨lines, shown, rfl⟩, ?_, ?_⟩
  · have trimmed : Image.trimTrailing (Image.region program.words) =
        Image.trimTrailing program.words :=
      Image.trimTrailing_append_zeros program.words _
    rw [trimmed, withoutFinal, linesOf_terminated whole]
    exact listing_eq_ok_iff.mpr ⟨_, listing_trimTrailing static shown, rfl⟩
  · rw [← terminated_append]
    refine listing_eq_ok_iff.mpr ⟨_, ?_, rfl⟩
    rw [Image.region, List.map_append, List.map_append, shown,
      map_disassemble_zeros]
    rfl

/-- A program with stops at its start, in its middle and at its end. -/
theorem listings_of_stops :
    ∃ program,
      assemble "stop.asm"
        ".section instruction\n don\n add r1, #-1\n don\n pop pc\n don\n don" =
        .ok program ∧
      program.words = [0, 0x14FFF1, 0, 0xE0000E, 0, 0] ∧
      ∃ image region,
        Image.write program.words = .ok image ∧ Image.read image = .ok region ∧
        listing (Image.trimTrailing region) =
          .ok "DON\nADD R1, #0xFFF\nDON\nPOP PC\n" ∧
        listing region =
          .ok ("DON\nADD R1, #0xFFF\nDON\nPOP PC\nDON\nDON\n" ++
            terminated (List.replicate 0x9F9 "DON")) := by
  rcases (⟨_, rfl, rfl⟩ : ∃ program,
      assemble "stop.asm"
        ".section instruction\n don\n add r1, #-1\n don\n pop pc\n don\n don" =
        .ok program ∧ program.words = [0, 0x14FFF1, 0, 0xE0000E, 0, 0]) with
    ⟨program, assembled, words⟩
  rcases listings_of_image assembled with
    ⟨image, region, shown, written, read, listed, trimmed, all⟩
  have isShown : shown = "DON\nADD R1, #0xFFF\nDON\nPOP PC\nDON\nDON\n" := by
    rw [words] at listed
    have known : listing [0, 0x14FFF1, 0, 0xE0000E, 0, 0] =
        .ok "DON\nADD R1, #0xFFF\nDON\nPOP PC\nDON\nDON\n" := by decide +kernel
    exact Except.ok.inj (listed.symm.trans known)
  subst isShown
  have front :
      withoutFinal "DON" "DON\nADD R1, #0xFFF\nDON\nPOP PC\nDON\nDON\n" =
      "DON\nADD R1, #0xFFF\nDON\nPOP PC\n" := by decide +kernel
  rw [front] at trimmed
  rw [words] at all
  exact ⟨program, assembled, words, image, region, written, read, trimmed, all⟩

end Asm24.Assembly
