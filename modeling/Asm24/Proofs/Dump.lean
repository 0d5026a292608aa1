import Asm24.Proofs.Delivery
import Asm24.Proofs.ImageListing

/-!
# Dumps of words

A dump is a table with one line for each word: the address, the word, and the
text that the listing shows for it.  Texts, listing and dump are made from left
to right, and all three end at the first word that is no instruction, before
anything is written.

Tabs separate the columns, and no column has a tab or a line feed in it.  So a
dump can be cut back into its columns, and the digits of the second column give
the words.  The texts alone would not do, since several words can have the same
text.
-/

namespace Asm24.Assembly

open Asm24.Files (Production)
open Asm24.Machine
open Asm24.Proofs
open Asm24.Text (IsNumeral linesOf terminated linesOf_terminated)

/-! ## Cells -/

/--
A text that can stand in a column of a table: it has neither a tab nor a line
feed.
-/
def IsCell (text : String) : Prop :=
  ∀ char ∈ text.toList, char ≠ '\t' ∧ char ≠ '\n'

theorem IsCell.append {first second : String} (left : IsCell first)
    (right : IsCell second) :
    IsCell (first ++ second) := by
  rw [IsCell, String.toList_append, List.forall_mem_append]
  exact ⟨left, right⟩

theorem isCell_hexUpper (width value : Nat) :
    IsCell (Text.hexUpper width value) := by
  have every : ∀ digit < 16, Text.hexDigit digit ≠ '\t' ∧
      Text.hexDigit digit ≠ '\n' := by decide
  intro char member
  obtain ⟨digit, small, rfl⟩ := Text.mem_hexUpper member
  exact every digit small

theorem mnemonic?_of_decode {word : Word} {instruction : Instruction}
    (decoded : Instruction.decode word = .ok instruction) :
    ∃ mnemonic, instruction.mnemonic? = some mnemonic := by
  have encodable :=
    ((Instruction.encode_eq_ok_iff _ _).mp
      (Instruction.encode_of_decode decoded)).1
  rw [← Option.isSome_iff_exists, ← Option.not_isNone, Bool.not_eq_true',
    Bool.eq_false_iff, ne_eq, Instruction.mnemonic?,
    Mnemonic.isNone_ofOpcode?_iff, not_not]
  exact encodable.opcode

/-- The operands of the instruction of a word are shown by listed characters. -/
theorem isListed_operandTexts {word : Word} {instruction : Instruction}
    (decoded : Instruction.decode word = .ok instruction) :
    ∀ operand ∈ instruction.operandTexts.map String.toList,
      IsListed operand := by
  rw [List.forall_mem_map]
  rcases slots_of_decode decoded with
    ⟨opcode, status, negate, destination, first, second, fit, rfl⟩ |
    ⟨opcode, status, negate, destination, value, fit, -, rfl⟩
  · intro operand member
    simp only [Instruction.operandTexts, List.mem_map,
      List.mem_flatMap] at member
    rcases member with ⟨register, ⟨slot, inSlots, inSlot⟩, rfl⟩
    refine (isCapital_name (fit register ?_)).isListed
    have taken := List.mem_of_mem_take inSlots
    rw [Option.mem_toList.mp inSlot] at taken
    simpa using taken
  · intro operand member
    rw [Instruction.operandTexts, List.mem_append] at member
    rcases member with name | number
    · split at name
      case isTrue =>
        rw [List.mem_singleton.mp name]
        exact (isCapital_name fit).isListed
      case isFalse => cases name
    · split at number
      case isTrue =>
        rw [List.mem_singleton.mp number, render_ofValue]
        exact (isListed_shownNumber _).1
      case isFalse => cases number

/-- The text of a word stands in a column. -/
theorem isCell_of_disassemble {word : Word} {text : String}
    (shown : disassemble word = .ok text) : IsCell text := by
  rcases bind_eq_ok_iff.mp shown with ⟨instruction, decoded, same⟩
  cases same
  rcases mnemonic?_of_decode decoded with ⟨mnemonic, operation⟩
  intro char member
  rw [toList_render operation] at member
  rcases Text.mem_spaced member with rfl | ⟨piece, inSpelling, inPiece⟩
  · decide
  · have listed :=
      isListed_spelling (isListed_operandTexts decoded) piece inSpelling
    have notBlank :=
      isBlank_of_isListed (List.all_eq_true.mp listed.2 char inPiece)
    constructor
    · rintro rfl
      cases notBlank
    · rintro rfl
      cases notBlank

/-! ## Rows -/

/-- The columns of a line, which tabs separate. -/
def columns (line : String) : List String :=
  (Text.split (· == '\t') line.toList).map String.ofList

/--
A line that shows an address, a word and a text in its columns.  The digits of
the first two columns spell the address and the word in hexadecimal.
-/
structure IsRow (line : String) (address : Nat) (word : Word) (text : String) :
    Prop where
  cut : columns line =
    ["0x" ++ Text.hexUpper 3 address ++ ":",
      "0x" ++ Text.hexUpper 6 word.toNat ++ "   ->", text]
  address : IsNumeral 16 (Text.hexUpper 3 address).toList address
  word : IsNumeral 16 (Text.hexUpper 6 word.toNat).toList word.toNat

/-- Cells that are joined by tabs are cut back. -/
theorem columns_append {first second third : String} (firstCell : IsCell first)
    (secondCell : IsCell second) (thirdCell : IsCell third) :
    columns (first ++ "\t" ++ second ++ "\t" ++ third) =
      [first, second, third] := by
  have whole {text : String} (cell : IsCell text) :
      ∀ char ∈ text.toList, (char == '\t') = false := by
    intro char member
    rw [beq_eq_false_iff_ne]
    exact (cell char member).1
  have chars : (first ++ "\t" ++ second ++ "\t" ++ third).toList =
      first.toList ++ '\t' :: (second.toList ++ '\t' :: third.toList) := by
    simp
  rw [columns, chars, Text.split_append_cons (whole firstCell) (by decide),
    Text.split_append_cons (whole secondCell) (by decide),
    Text.split_eq_singleton (whole thirdCell)]
  simp

/-- The line of a word in a dump is a row, and a line feed after it. -/
theorem exists_row (index : Nat) {word : Word} {text : String}
    (shown : disassemble word = .ok text) :
    ∃ row, dumpLine index word text = row ++ "\n" ∧ '\n' ∉ row.toList ∧
      IsRow row (0x600 + index) word text := by
  let first := "0x" ++ Text.hexUpper 3 (0x600 + index) ++ ":"
  let second := "0x" ++ Text.hexUpper 6 word.toNat ++ "   ->"
  have mark : IsCell "0x" := by simp [IsCell]
  have firstCell : IsCell first :=
    (mark.append (isCell_hexUpper 3 _)).append (by simp [IsCell])
  have secondCell : IsCell second :=
    (mark.append (isCell_hexUpper 6 _)).append (by simp [IsCell])
  have textCell := isCell_of_disassemble shown
  refine ⟨first ++ "\t" ++ second ++ "\t" ++ text, ?_, ?_, ?_⟩
  · have base : Region.instruction.base.toNat = 0x600 := rfl
    rw [← String.toList_inj]
    simp [dumpLine, first, second, base]
  · simp only [String.toList_append, List.mem_append, not_or]
    refine ⟨⟨⟨⟨?_, by decide⟩, ?_⟩, by decide⟩, ?_⟩
    · exact fun feed => (firstCell _ feed).2 rfl
    · exact fun feed => (secondCell _ feed).2 rfl
    · exact fun feed => (textCell _ feed).2 rfl
  · exact ⟨columns_append firstCell secondCell textCell,
      Text.isNumeral_hexUpper 3 _, Text.isNumeral_hexUpper 6 _⟩

/-- A row shows no more than one word. -/
theorem IsRow.word_unique {line text otherText : String}
    {address otherAddress : Nat} {word otherWord : Word}
    (row : IsRow line address word text)
    (other : IsRow line otherAddress otherWord otherText) :
    word = otherWord := by
  have cut := row.cut.symm.trans other.cut
  have second := congrArg String.toList (List.cons.inj (List.cons.inj cut).2).1
  simp only [String.toList_append, List.append_assoc,
    List.append_cancel_left_eq, List.append_cancel_right_eq] at second
  have narrow (word : Word) : word.toNat < 2 ^ 64 := by
    have := word.toNat_lt
    omega
  have read := Text.readNatural_hexUpper 6 (narrow word)
  rw [second, Text.readNatural_hexUpper 6 (narrow otherWord)] at read
  exact UInt32.toNat_inj.mp (Except.ok.inj read).symm

/-! ## Tables -/

/-- Rows show words and texts in order, one row each, from an address on. -/
structure Tabulates (base : Nat) (words : List Word)
    (texts rows : List String) : Prop where
  count : rows.length = words.length
  shows : ∀ index word, words[index]? = some word →
    ∃ row text, rows[index]? = some row ∧ texts[index]? = some text ∧
      IsRow row (base + index) word text

theorem Tabulates.cons {base : Nat} {words : List Word}
    {texts rows : List String} {word : Word} {text row : String}
    (isRow : IsRow row base word text)
    (rest : Tabulates (base + 1) words texts rows) :
    Tabulates base (word :: words) (text :: texts) (row :: rows) := by
  refine ⟨by simp [rest.count], ?_⟩
  intro index shown found
  cases index with
  | zero =>
      rw [List.getElem?_cons_zero, Option.some.injEq] at found
      exact ⟨row, text, rfl, rfl, found ▸ isRow⟩
  | succ index =>
      have next : base + (index + 1) = base + 1 + index := by omega
      rw [next]
      exact rest.shows index shown found

/-- Rows determine the words that they show. -/
theorem Tabulates.words_unique {base otherBase : Nat} {words others : List Word}
    {texts otherTexts rows : List String}
    (table : Tabulates base words texts rows)
    (other : Tabulates otherBase others otherTexts rows) : words = others := by
  have length := table.count.symm.trans other.count
  refine List.ext_getElem length ?_
  intro index inWords inOthers
  rcases table.shows index _ (List.getElem?_eq_getElem inWords) with
    ⟨row, _, found, -, isRow⟩
  rcases other.shows index _ (List.getElem?_eq_getElem inOthers) with
    ⟨_, _, again, -, isOther⟩
  rw [found, Option.some.injEq] at again
  subst again
  exact isRow.word_unique isOther

/-- The lines of a dump are rows that show the words and their texts. -/
theorem exists_rows {words : List Word} {texts : List String}
    (shown : words.map disassemble = texts.map .ok) (index : Nat) :
    ∃ rows, dumpLines index words texts = rows.map (· ++ "\n") ∧
      (∀ row ∈ rows, '\n' ∉ row.toList) ∧
      Tabulates (0x600 + index) words texts rows := by
  induction words generalizing index texts with
  | nil => exact ⟨[], by simp [dumpLines], by simp, rfl, by simp⟩
  | cons word words ih =>
      cases texts with
      | nil => simp at shown
      | cons text texts =>
          rw [List.map_cons, List.map_cons, List.cons.injEq] at shown
          rcases exists_row index shown.1 with ⟨row, line, whole, isRow⟩
          rcases ih shown.2 (index + 1) with ⟨rows, lines, others, table⟩
          refine ⟨row :: rows, by rw [dumpLines, line, lines, List.map_cons],
            ?_, ?_⟩
          · exact List.forall_mem_cons.mpr ⟨whole, others⟩
          · exact table.cons isRow

/-! ## Words that are no instructions -/

/-- A word that is an instruction. -/
def Decodes (word : Word) : Prop :=
  ∃ instruction, Instruction.decode word = .ok instruction

theorem decodes_iff_disassemble {word : Word} :
    Decodes word ↔ ∃ text, disassemble word = .ok text := by
  simp only [Decodes, disassemble, bind_eq_ok_iff, pure_eq_ok_iff]
  constructor
  · rintro ⟨instruction, decoded⟩
    exact ⟨_, instruction, decoded, rfl⟩
  · rintro ⟨_, instruction, decoded, -⟩
    exact ⟨instruction, decoded⟩

/-- All words have texts exactly if they are instructions. -/
theorem forall_decodes_iff {words : List Word} :
    (∀ word ∈ words, Decodes word) ↔
      ∃ texts : List String, words.map disassemble = texts.map .ok := by
  induction words with
  | nil => exact ⟨fun _ => ⟨[], rfl⟩, fun _ => by simp⟩
  | cons word words ih =>
      rw [List.forall_mem_cons, ih, decodes_iff_disassemble]
      constructor
      · rintro ⟨⟨text, first⟩, texts, rest⟩
        exact ⟨text :: texts, by rw [List.map_cons, first, rest, List.map_cons]⟩
      · rintro ⟨texts, shown⟩
        cases texts with
        | nil => cases shown
        | cons text texts =>
            rw [List.map_cons, List.map_cons, List.cons.injEq] at shown
            exact ⟨⟨text, shown.1⟩, texts, shown.2⟩

/-- Among words that are not all instructions there is a first that is none. -/
theorem exists_first_undecodable {words : List Word}
    (fails : ¬ ∀ word ∈ words, Decodes word) :
    ∃ before word after cause, words = before ++ word :: after ∧
      (∀ earlier ∈ before, Decodes earlier) ∧
      Instruction.decode word = .error cause := by
  induction words with
  | nil => simp at fails
  | cons word words ih =>
      cases decoded : Instruction.decode word with
      | error cause => exact ⟨[], word, words, cause, rfl, by simp, decoded⟩
      | ok instruction =>
          have decodes : Decodes word := ⟨instruction, decoded⟩
          rw [List.forall_mem_cons, not_and] at fails
          rcases ih (fails decodes) with
            ⟨before, next, after, cause, rfl, earlier, undecoded⟩
          exact ⟨word :: before, next, after, cause, rfl,
            List.forall_mem_cons.mpr ⟨decodes, earlier⟩, undecoded⟩

/-- Texts end at the first word that is no instruction. -/
theorem disassembleFrom_eq_error (index : Nat) {before after : List Word}
    {word : Word} {cause : DecodeError}
    (decode : ∀ earlier ∈ before, Decodes earlier)
    (fails : Instruction.decode word = .error cause) :
    disassembleFrom index (before ++ word :: after) =
      .error ⟨index + before.length, cause⟩ := by
  induction before generalizing index with
  | nil => simp [disassembleFrom, disassemble, fails, bind, Except.bind]
  | cons earlier before ih =>
      rw [List.forall_mem_cons] at decode
      rcases decodes_iff_disassemble.mp decode.1 with ⟨text, shown⟩
      have length :
          index + (before.length + 1) = index + 1 + before.length := by omega
      rw [List.cons_append, disassembleFrom, shown, List.length_cons, length]
      simp only [ih (index + 1) decode.2]
      rfl

/--
Neither texts nor a listing nor a dump is made of words, nothing is written to
any writer, and the error names the index of a word.
-/
structure Unlisted (words : List Word) (error : ListingError) : Prop where
  texts : disassembleAll words = .error error
  listing : Machine.listing words = .error error
  dump : Machine.dump words = .error error
  unwritten : (listingProduction words).Withholds error ∧
    (dumpProduction words).Withholds error
  named :
    error.message = "word " ++ toString error.index ++ ": " ++
      error.cause.message

theorem Unlisted.of_texts {words : List Word} {error : ListingError}
    (texts : disassembleAll words = .error error) : Unlisted words error := by
  have listed : listedLines words = .error error := by
    rw [listedLines, texts]
    rfl
  have dumped : dumpedLines words = .error error := by
    rw [dumpedLines, texts]
    rfl
  refine ⟨texts, ?_, ?_, ⟨?_, ?_⟩, rfl⟩
  · rw [Machine.listing, listed]
    rfl
  · rw [Machine.dump, dumped]
    rfl
  · rw [listingProduction, listed]
    exact Production.withholds_ofParts error
  · rw [dumpProduction, dumped]
    exact Production.withholds_ofParts error

/-! ## Dumps and listings -/

/--
Texts, a listing and a dump are made of words, and listing and dump are written
as they are made.  The listing has one line for each word, which is its text.
The dump has a heading and one row for each word, which shows its address, the
word, and the line of the listing.
-/
structure Tabled (words : List Word) (listed dumped : String) : Prop where
  listing : Machine.listing words = .ok listed
  dump : Machine.dump words = .ok dumped
  written : (listingProduction words).Delivers (Text.encode listed.toList) ∧
    (dumpProduction words).Delivers (Text.encode dumped.toList)
  texts : disassembleAll words = .ok (linesOf listed)
  lines : terminated (linesOf listed) = listed ∧
    (linesOf listed).length = words.length
  rows : ∃ rows, terminated ("ADDR:\tINSTR:\t\tDIS-ASM:" :: rows) = dumped ∧
    linesOf dumped = "ADDR:\tINSTR:\t\tDIS-ASM:" :: rows ∧
    Tabulates 0x600 words (linesOf listed) rows

theorem exists_tabled {words : List Word}
    (decode : ∀ word ∈ words, Decodes word) :
    ∃ listed dumped, Tabled words listed dumped := by
  rcases forall_decodes_iff.mp decode with ⟨texts, shown⟩
  have all : disassembleAll words = .ok texts :=
    disassembleFrom_eq_ok_iff.mpr shown
  have length : texts.length = words.length := by
    simpa using (congrArg List.length shown).symm
  have whole : ∀ text ∈ texts, '\n' ∉ text.toList := by
    intro text member feed
    rcases List.mem_map.mp (shown ▸ List.mem_map_of_mem member) with
      ⟨word, -, textOfWord⟩
    exact (isCell_of_disassemble textOfWord _ feed).2 rfl
  rcases exists_rows shown 0 with ⟨rows, lines, inRows, table⟩
  have listed : listedLines words = .ok (texts.map (· ++ "\n")) := by
    rw [listedLines, all]
    rfl
  have dumped : dumpedLines words =
      .ok (("ADDR:\tINSTR:\t\tDIS-ASM:" :: rows).map (· ++ "\n")) := by
    rw [dumpedLines, all, List.map_cons, ← lines]
    rfl
  have read := linesOf_terminated whole
  refine ⟨terminated texts, terminated ("ADDR:\tINSTR:\t\tDIS-ASM:" :: rows),
    ?_⟩
  refine ⟨listing_eq_ok_iff.mpr ⟨texts, shown, rfl⟩, ?_, ⟨?_, ?_⟩, ?_, ?_, rows,
    rfl, ?_, ?_⟩
  · rw [dump, dumped]
    rfl
  · rw [listingProduction, listed]
    exact Production.delivers_ofTexts _
  · rw [dumpProduction, dumped]
    exact Production.delivers_ofTexts _
  · rw [read, all]
  · rw [read]
    exact ⟨rfl, length⟩
  · exact linesOf_terminated (List.forall_mem_cons.mpr ⟨by simp, inRows⟩)
  · rw [read]
    exact table

/-- A dump is made only of instructions. -/
theorem decodes_of_dump {words : List Word} {dumped : String}
    (made : dump words = .ok dumped) :
    ∀ word ∈ words, Decodes word := by
  cases shown : disassembleAll words with
  | error error =>
      rw [dump, dumpedLines, shown] at made
      cases made
  | ok texts =>
      exact forall_decodes_iff.mpr ⟨texts, disassembleFrom_eq_ok_iff.mp shown⟩

/--
If all words are instructions, the listing and the dump are made, and they agree
line by line.  Otherwise neither is made nor anything written, and the error
names the first word that is no instruction.  Two lists of words with the same
dump are equal.
-/
theorem dump_faithful (words : List Word) :
    ((∀ word ∈ words, Decodes word) →
      ∃ listed dumped, Tabled words listed dumped) ∧
      ((¬ ∀ word ∈ words, Decodes word) →
        ∃ before word after cause, words = before ++ word :: after ∧
          (∀ earlier ∈ before, Decodes earlier) ∧
          Instruction.decode word = .error cause ∧
          Unlisted words ⟨before.length, cause⟩) ∧
      ∀ others dumped, dump words = .ok dumped → dump others = .ok dumped →
        words = others := by
  refine ⟨exists_tabled, ?_, ?_⟩
  · intro fails
    rcases exists_first_undecodable fails with
      ⟨before, word, after, cause, rfl, earlier, undecoded⟩
    have texts :=
      @disassembleFrom_eq_error 0 before after word cause earlier undecoded
    rw [Nat.zero_add] at texts
    exact ⟨before, word, after, cause, rfl, earlier, undecoded, .of_texts texts⟩
  · intro others dumped made again
    rcases exists_tabled (decodes_of_dump made) with ⟨listed, _, table⟩
    rcases exists_tabled (decodes_of_dump again) with
      ⟨otherListed, _, otherTable⟩
    cases table.dump.symm.trans made
    cases otherTable.dump.symm.trans again
    rcases table.rows with ⟨rows, -, lines, rowsOfWords⟩
    rcases otherTable.rows with ⟨otherRows, -, otherLines, rowsOfOthers⟩
    rw [lines, List.cons.injEq] at otherLines
    rw [← otherLines.2] at rowsOfOthers
    exact rowsOfWords.words_unique rowsOfOthers

/--
The words of a stop and of a stop with operand bits have the same text but other
dumps.  A third word that is too wide is named by the error, although the word
behind it is no instruction either.
-/
theorem dump_of_equal_texts :
    listing [0, 0x10] = listing [0x10, 0] ∧ dump [0, 0x10] ≠ dump [0x10, 0] ∧
      ∃ error, Unlisted [0, 0x10, 0x1000000, 0xF00000] error ∧
        error.message = "word 2: word wider than 24 bits: 0x1000000" := by
  refine ⟨by decide, ?_, ?_⟩
  · intro same
    have decode : ∀ word ∈ [(0 : Word), 0x10], Decodes word := by
      simp only [List.forall_mem_cons, List.not_mem_nil, false_imp_iff,
        implies_true, and_true]
      exact ⟨⟨_, rfl⟩, ⟨_, rfl⟩⟩
    rcases (dump_faithful [0, 0x10]).1 decode with ⟨listed, dumped, table⟩
    have equal :=
      (dump_faithful [0, 0x10]).2.2 [0x10, 0] dumped table.dump
        (same ▸ table.dump)
    revert equal
    decide
  · have fails : ¬ ∀ word ∈ [(0 : Word), 0x10, 0x1000000, 0xF00000],
        Decodes word := by
      intro decode
      rcases decode 0x1000000 (by simp) with ⟨instruction, decoded⟩
      cases decoded
    rcases (dump_faithful _).2.1 fails with
      ⟨before, word, after, cause, -, -, -, unlisted⟩
    have wide :
        dump [0, 0x10, 0x1000000, 0xF00000] =
          .error ⟨2, .tooWide 0x1000000⟩ := by decide
    have error := Except.error.inj (unlisted.dump.symm.trans wide)
    exact ⟨_, unlisted, by rw [error]; decide⟩

end Asm24.Assembly
