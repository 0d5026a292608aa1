import Asm24.Proofs.Image
import Asm24.Proofs.Listing
import Asm24.Proofs.Program
import Asm24.Proofs.SourceText

/-!
# From source to image to listing and back

The words of a program are those of instructions without labels.  They fit in an
image, which is read back, and their listing is source text for the same words.
-/

namespace Asm24.Assembly

open Asm24.Machine
open Asm24.Proofs

/-! ## Words of programs -/

/--
The words of a program fit in the region and are words of instructions without
labels.
-/
theorem words_of_assembleLines {source : String} {lines : List Line}
    {program : Program} (assembled : assembleLines source lines = .ok program) :
    program.words.length ≤ 0x9FF ∧ ∀ word ∈ program.words, IsStatic word := by
  obtain ⟨statementsLength, wordsLength⟩ := lengths_of_assembleLines assembled
  have fits := (laidOut_of_assembleLines assembled).codeFits
  refine ⟨by omega, ?_⟩
  obtain ⟨sections, linked, words, -, laidOut, -, operates, done,
      encoded, rfl⟩ :=
    (assembleLines_eq_ok_iff rfl rfl).mp assembled
  intro word member
  have result :=
    List.mem_map_of_mem (f := (.ok : Word → Except AssemblyError Word)) member
  rw [← encoded, List.mem_map] at result
  obtain ⟨statement, inLinked, wordOf⟩ := result
  obtain ⟨written, noLabel⟩ := written_of_linked laidOut operates done inLinked
  exact ⟨statement.instruction, written, noLabel,
    Statement.encode_eq_ok_iff.mp wordOf⟩

/-! ## Listings as source text -/

/-- A listing has the texts of the words as its lines. -/
theorem listing_eq (words : List Word) :
    listing words = (disassembleAll words).map Text.terminated := by
  rw [listing, listedLines]
  cases disassembleAll words with
  | error error => rfl
  | ok texts => rfl

/--
The lines of a listing, without the header in front and the empty line at the
end.
-/
def listingLines (start : Nat) (texts : List String) : List Line :=
  (texts.zipIdx start).map (fun (text, number) =>
    ⟨number, String.ofList (Line.normalize text.toList)⟩)

theorem forall₂_listingLines {texts : List String} {words : List Word}
    (relists : List.Forall₂ Relists texts words) (start : Nat) :
    List.Forall₂ Line.Lists (listingLines start texts) words := by
  induction relists generalizing start with
  | nil => exact .nil
  | cons first rest ih => exact .cons (first.2 start) (ih (start + 1))

/--
The header of the section of code is a line of its own, above the lines of a
text.
-/
theorem split_header (text : String) :
    Line.split (".SECTION INSTRUCTION\n" ++ text) =
      ⟨1, ".SECTION INSTRUCTION"⟩ ::
        ((Text.split (· == '\n') text.toList).zipIdx 2).map
          (fun (raw, number) =>
            ⟨number, String.ofList (Line.normalize raw)⟩) := by
  have chars : (".SECTION INSTRUCTION\n" ++ text).toList =
      ".SECTION INSTRUCTION".toList ++ '\n' :: text.toList := by
    simp
  have normal : String.ofList (Line.normalize ".SECTION INSTRUCTION".toList) =
      ".SECTION INSTRUCTION" := by
    decide +kernel
  have whole : '\n' ∉ ".SECTION INSTRUCTION".toList := by
    decide
  rw [Line.split_eq, chars,
    Text.split_append_cons (Text.beq_feed_eq_false whole) (by decide)]
  simp only [List.zipIdx_cons, List.map_cons, normal]
  rfl

/-- The lines of a listing under the header of its section. -/
theorem split_listing {texts : List String}
    (whole : ∀ text ∈ texts, '\n' ∉ text.toList) :
    Line.split (".SECTION INSTRUCTION\n" ++ Text.terminated texts) =
      ⟨1, ".SECTION INSTRUCTION"⟩ ::
        (listingLines 2 texts ++ [⟨(2 + texts.length : Nat), ""⟩]) := by
  rw [split_header, Text.split_toList_terminated whole]
  simp only [List.zipIdx_append, List.zipIdx_cons, List.zipIdx_nil,
    List.map_append, List.map_cons, List.map_nil, List.length_map,
    List.zipIdx_map, List.map_map, listingLines]
  rfl

/-- A line that holds no code, declares no label and opens no section. -/
def Line.IsVoid (line : Line) : Prop :=
  line.isCode = false ∧ line.label? = none ∧ line.isHeader = false

theorem isVoid_empty (number : Int) : Line.IsVoid ⟨number, ""⟩ :=
  ⟨rfl, rfl, rfl⟩

section Listed

variable {inner tail : List Line} {words : List Word}
  (lists : List.Forall₂ Line.Lists inner words)

include lists

omit tail in
theorem codeLines_listed : codeLines inner = inner := by
  rw [codeLines, List.filter_eq_self]
  intro line member
  obtain ⟨word, listsWord⟩ := exists_related lists line member
  exact listsWord.code

omit tail in
theorem declared_listed : declared inner = [] := by
  rw [declared, List.filterMap_eq_nil_iff]
  intro line member
  obtain ⟨word, listsWord⟩ := exists_related lists line member
  exact Line.label?_eq_none_of_isCode listsWord.code

variable (void : ∀ line ∈ tail, line.IsVoid)

include void

theorem isHeader_listed : ∀ line ∈ inner ++ tail, line.isHeader = false := by
  rw [List.forall_mem_append]
  refine ⟨?_, fun line member => (void line member).2.2⟩
  intro line member
  obtain ⟨word, listsWord⟩ := exists_related lists line member
  exact listsWord.inner

theorem codeLines_listed_append : codeLines (inner ++ tail) = inner := by
  have none : codeLines tail = [] := by
    rw [codeLines, List.filter_eq_nil_iff]
    intro line member code
    rw [(void line member).1] at code
    cases code
  rw [codeLines, List.filter_append, ← codeLines, ← codeLines,
    codeLines_listed lists, none, List.append_nil]

theorem declared_listed_append : declared (inner ++ tail) = [] := by
  have none : declared tail = [] := by
    rw [declared, List.filterMap_eq_nil_iff]
    intro line member
    exact (void line member).2.1
  rw [declared, List.filterMap_append, ← declared, ← declared,
    declared_listed lists, none, List.append_nil]

/-- The lines of a listing are a block of code. -/
theorem wellFormed_listed (fits : words.length ≤ 0x9FF) :
    WellFormed [] (inner ++ tail) := by
  refine ⟨⟨Nat.zero_le _, ?_, ?_⟩, by simp, ?_, ?_⟩
  · rw [codeLines_listed_append lists void, lists.length_eq]
    exact fits
  · rw [declared_listed_append lists void]
    exact List.nodup_nil
  · rw [List.forall_mem_append]
    constructor
    · intro line member _
      obtain ⟨word, listsWord⟩ := exists_related lists line member
      obtain ⟨instruction, read, -⟩ := listsWord.writes
      exact ⟨instruction, read⟩
    · intro line member code
      rw [(void line member).1] at code
      cases code
  · rw [codeLines_listed_append lists void]
    intro line member instruction label read operand
    obtain ⟨word, listsWord⟩ := exists_related lists line member
    obtain ⟨written, readWritten, noLabel, -⟩ := listsWord.writes
    rw [read] at readWritten
    cases readWritten
    exact absurd operand (noLabel label)

omit void in
omit tail in
/-- A program whose lines of code list words has these words. -/
theorem words_of_listed {source : String} {lines : List Line}
    {program : Program} (assembled : assembleLines source lines = .ok program)
    (codeIs : codeLines (lastBody .instruction lines) = inner) :
    program.words = words := by
  obtain ⟨statementsLength, wordsLength⟩ := lengths_of_assembleLines assembled
  rw [codeIs] at statementsLength
  refine List.ext_getElem
    (wordsLength.trans (statementsLength.trans lists.length_eq)) ?_
  intro index inProgram inWords
  have inInner : index < inner.length := by
    rw [lists.length_eq]
    exact inWords
  have found : (codeLines (lastBody .instruction lines))[index]? =
      some (inner.get ⟨index, inInner⟩) := by
    rw [codeIs]
    simp
  obtain ⟨instruction, resolved, word, read, becomes, encoded, -, there⟩ :=
    statement_of_assembleLines assembled found
  obtain ⟨written, readWritten, noLabel, listed⟩ :=
    (lists.get inInner inWords).writes
  rw [read] at readWritten
  cases readWritten
  cases becomes with
  | label operand => exact absurd operand (noLabel _)
  | plain =>
      rw [encoded] at listed
      cases listed
      exact (List.getElem?_eq_some_iff.mp there).2

/-- The lines of a listing are assembled to the words that they list. -/
theorem assembleLines_listed (fits : words.length ≤ 0x9FF) (source : String)
    {header : Line} (opens : header.IsHeaderOf .instruction) :
    ∃ program, assembleLines source (header :: (inner ++ tail)) = .ok program ∧
      program.words = words := by
  have noHeader := isHeader_listed lists void
  have dataIs : lastBody .readOnly (header :: (inner ++ tail)) = [] :=
    lastBody_cons_of_header opens noHeader .readOnly
  have codeIs :
      lastBody .instruction (header :: (inner ++ tail)) = inner ++ tail :=
    lastBody_cons_of_header opens noHeader .instruction
  have sections :
      ∃ sections, Sections.ofLines source (header :: (inner ++ tail)) =
        .ok sections := by
    obtain ⟨sections, read, -⟩ :=
      Sections.exists_ofLines_block ⟨header, inner ++ tail, opens,
        noHeader⟩ source
    exact ⟨sections, read⟩
  have wellFormed : WellFormed (lastBody .readOnly (header :: (inner ++ tail)))
      (lastBody .instruction (header :: (inner ++ tail))) := by
    rw [dataIs, codeIs]
    exact wellFormed_listed lists void fits
  obtain ⟨_, read⟩ := sections
  obtain ⟨program, assembled⟩ :=
    exists_assembleLines_of_wellFormed read wellFormed
  exact ⟨program, assembled, words_of_listed lists assembled
    (by rw [codeIs, codeLines_listed_append lists void])⟩

end Listed

/-- Words have a listing that is source text for exactly these words. -/
def Relistable (words : List Word) : Prop :=
  ∃ text, listing words = .ok text ∧ ∀ source, ∃ program,
    assemble source (".SECTION INSTRUCTION\n" ++ text) = .ok program ∧
      program.words = words

/--
The words of instructions without labels can be listed and assembled again.
-/
theorem relistable_of_static {words : List Word}
    (static : ∀ word ∈ words, IsStatic word) (fits : words.length ≤ 0x9FF) :
    Relistable words := by
  obtain ⟨texts, shown, relists⟩ := exists_disassembleFrom static 0
  refine ⟨Text.terminated texts, by rw [listing_eq, disassembleAll, shown]; rfl,
    ?_⟩
  intro source
  have whole : ∀ text ∈ texts, '\n' ∉ text.toList := by
    intro text member
    obtain ⟨word, relistsWord⟩ := exists_related relists text member
    exact relistsWord.1
  rw [assemble, split_listing whole]
  exact assembleLines_listed (forall₂_listingLines relists 2)
    (by simp [isVoid_empty]) fits source (by decide)

/-! ## The whole way -/

/--
The words of a program have an image, which is read back; dropping the zeros at
the end of what is read gives the words without the zeros at their end.  Both
sequences of words have a listing, and each listing is source text for exactly
these words.
-/
theorem assemble_image_listing {source text : String} {program : Program}
    (assembled : assemble source text = .ok program) :
    ∃ image region,
      Image.write program.words = .ok image ∧ Image.read image = .ok region ∧
      (∃ count, program.words = Image.trimTrailing region ++
        List.replicate count 0) ∧
      (Image.trimTrailing region).getLast? ≠ some 0 ∧
      Relistable program.words ∧ Relistable (Image.trimTrailing region) := by
  obtain ⟨fits, static⟩ := words_of_assembleLines assembled
  have narrow : ∀ word ∈ program.words, word.toNat < 2 ^ 24 := by
    intro word member
    obtain ⟨instruction, -, -, encoded⟩ := static word member
    exact (Instruction.decode_of_encode encoded).1
  have trimmed : Image.trimTrailing (Image.region program.words) =
      Image.trimTrailing program.words :=
    Image.trimTrailing_append_zeros program.words _
  obtain ⟨⟨count, split⟩, ends⟩ := Image.trimTrailing_spec program.words
  refine ⟨_, Image.region program.words, Image.write_eq_ok fits,
    Image.read_layout fits narrow, ?_⟩
  rw [trimmed]
  have front : Image.trimTrailing program.words <+: program.words :=
    ⟨_, split.symm⟩
  exact ⟨⟨count, split⟩, ends, relistable_of_static static fits,
    relistable_of_static (fun word member => static word (front.subset member))
      (Nat.le_trans front.length_le fits)⟩

/-- A program that ends with zeros, of which the image keeps no trace. -/
theorem assemble_image_listing_zeros :
    ∃ program,
      assemble "stop.asm" ".section instruction\n  add r1, #-1\n  don\n  don" =
        .ok program ∧
      program.words = [0x14FFF1, 0, 0] ∧
      ∃ image region,
        Image.write program.words = .ok image ∧ Image.read image = .ok region ∧
        (∃ count, program.words = Image.trimTrailing region ++
          List.replicate count 0) ∧
        (Image.trimTrailing region).getLast? ≠ some 0 ∧
        Relistable program.words ∧ Relistable (Image.trimTrailing region) := by
  obtain ⟨program, assembled, words⟩ : ∃ program,
      assemble "stop.asm" ".section instruction\n  add r1, #-1\n  don\n  don" =
        .ok program ∧
        program.words = [0x14FFF1, 0, 0] := ⟨_, rfl, rfl⟩
  exact ⟨program, assembled, words, assemble_image_listing assembled⟩

end Asm24.Assembly
