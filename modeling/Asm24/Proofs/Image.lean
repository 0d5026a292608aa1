import Asm24.Image
import Asm24.Proofs.Delivery
import Mathlib.Algebra.Group.Nat.Defs
import Mathlib.Data.List.Induction
import Mathlib.Data.Nat.Digits.Defs

/-!
# Reading images back

The image of a program is read back as the whole instruction region: the words
of the program and the zeros after them.  Dropping the zeros at the end of the
region gives the words of the program without the zeros at their end.

`IsImage` describes the bytes of an image by the numbers that they write, four
bytes at a time.  `write_eq_ok_iff` and `exists_read_iff` say which words have
an image and which bytes are read, and `write_read_inverse` that writing and
reading invert one another.
-/

namespace Asm24.Image

open Asm24.Files (Production content_of_success)
open Asm24.Machine

/-! ## Bytes -/

/-- The words of a sequence are read back from their bytes. -/
theorem wordsOfBytes_flatMap (words : List Word) :
    wordsOfBytes (words.flatMap wordBytes) = words := by
  induction words with
  | nil => rfl
  | cons word rest ih => rw [List.flatMap_cons, wordsOfBytes_wordBytes, ih]

theorem length_flatMap_wordBytes (words : List Word) :
    (words.flatMap wordBytes).length = words.length * 4 := by
  induction words with
  | nil => rfl
  | cons word rest ih =>
      rw [List.flatMap_cons, List.length_append, ih, List.length_cons]
      change 4 + rest.length * 4 = _
      omega

/-! ## Bytes as numbers -/

/--
The number that the four bytes of a word write, most significant byte first.
-/
def numberAt (bytes : List UInt8) (index : Nat) : Nat :=
  Nat.ofDigits 256 (((bytes.drop (4 * index)).take 4).reverse.map UInt8.toNat)

theorem numberAt_drop (bytes : List UInt8) (skipped index : Nat) :
    numberAt (bytes.drop (4 * skipped)) index =
      numberAt bytes (skipped + index) := by
  rw [numberAt, numberAt, List.drop_drop, Nat.mul_add]

theorem numberAt_zero (first second third fourth : UInt8) (rest : List UInt8) :
    numberAt (first :: second :: third :: fourth :: rest) 0 =
      (wordOfBytes first second third fourth).toNat := by
  have firstBound := first.toNat_lt
  have secondBound := second.toNat_lt
  have thirdBound := third.toNat_lt
  have fourthBound := fourth.toNat_lt
  rw [wordOfBytes, UInt32.toNat_ofNat_of_lt' (by change _ < 2 ^ 32; omega)]
  simp [numberAt, Nat.ofDigits_cons]
  omega

/-- Where four bytes are left, the word there is the number that they write. -/
theorem getElem?_wordsOfBytes {bytes : List UInt8} {count index : Nat}
    (length : bytes.length = 4 * count) (inside : index < count) :
    ∃ word, (wordsOfBytes bytes)[index]? = some word ∧
      word.toNat = numberAt bytes index := by
  induction count generalizing bytes index with
  | zero => omega
  | succ count ih =>
      match bytes, length with
      | first :: second :: third :: fourth :: rest, length =>
          rw [wordsOfBytes]
          cases index with
          | zero => exact ⟨_, rfl, (numberAt_zero ..).symm⟩
          | succ index =>
              have length : rest.length = 4 * count := by
                simp only [List.length_cons] at length
                omega
              rcases @ih rest index length (by omega) with ⟨word, found, number⟩
              refine ⟨word, found, ?_⟩
              rw [number, Nat.add_comm, ← numberAt_drop]
              rfl

theorem wordBytes_wordOfBytes (first second third fourth : UInt8) :
    wordBytes (wordOfBytes first second third fourth) =
      [first, second, third, fourth] := by
  have firstBound := first.toNat_lt
  have secondBound := second.toNat_lt
  have thirdBound := third.toNat_lt
  have fourthBound := fourth.toNat_lt
  simp only [wordBytes, wordOfBytes]
  rw [UInt32.toNat_ofNat_of_lt' (by change _ < 2 ^ 32; omega)]
  simp only [List.cons.injEq, and_true, ← UInt8.toNat_inj, UInt8.toNat_ofNat']
  omega

/-- Bytes that fill whole words are the bytes of their words. -/
theorem flatMap_wordsOfBytes {bytes : List UInt8} {count : Nat}
    (length : bytes.length = 4 * count) :
    (wordsOfBytes bytes).length = count ∧
      (wordsOfBytes bytes).flatMap wordBytes = bytes := by
  induction count generalizing bytes with
  | zero =>
      rw [List.eq_nil_of_length_eq_zero length]
      exact ⟨rfl, rfl⟩
  | succ count ih =>
      match bytes, length with
      | first :: second :: third :: fourth :: rest, length =>
          have length : rest.length = 4 * count := by
            simp only [List.length_cons] at length
            omega
          rcases ih length with ⟨restLength, restBytes⟩
          rw [wordsOfBytes, List.length_cons, restLength, List.flatMap_cons,
            wordBytes_wordOfBytes, restBytes]
          exact ⟨rfl, rfl⟩

/--
What holds of every word of some bytes holds of every number that they write.
-/
theorem forall_wordsOfBytes_iff {bytes : List UInt8} {count : Nat}
    (length : bytes.length = 4 * count) (holds : Nat → Prop) :
    (∀ word ∈ wordsOfBytes bytes, holds word.toNat) ↔
      ∀ index < count, holds (numberAt bytes index) := by
  constructor
  · intro every index inside
    rcases getElem?_wordsOfBytes length inside with ⟨word, found, number⟩
    rw [← number]
    exact every word (List.mem_of_getElem? found)
  · intro every word member
    rcases List.getElem?_of_mem member with ⟨index, found⟩
    have inside := (List.getElem?_eq_some_iff.mp found).1
    rw [(flatMap_wordsOfBytes length).1] at inside
    rcases getElem?_wordsOfBytes length inside with ⟨other, there, number⟩
    rw [found] at there
    rw [Option.some.inj there, number]
    exact every index inside

/-- Bytes that fill whole words and write the same numbers are the same. -/
theorem eq_of_numberAt {left right : List UInt8} {count : Nat}
    (leftLength : left.length = 4 * count)
    (rightLength : right.length = 4 * count)
    (numbers : ∀ index < count, numberAt left index = numberAt right index) :
    left = right := by
  rcases flatMap_wordsOfBytes leftLength with ⟨leftCount, leftBytes⟩
  rcases flatMap_wordsOfBytes rightLength with ⟨rightCount, rightBytes⟩
  rw [← leftBytes, ← rightBytes]
  apply congrArg (List.flatMap wordBytes)
  apply List.ext_getElem?
  intro index
  by_cases inside : index < count
  · rcases getElem?_wordsOfBytes leftLength inside with
      ⟨leftWord, leftFound, leftNumber⟩
    rcases getElem?_wordsOfBytes rightLength inside with
      ⟨rightWord, rightFound, rightNumber⟩
    have same : leftWord = rightWord := by
      rw [← UInt32.toNat_inj, leftNumber, rightNumber, numbers index inside]
    rw [leftFound, rightFound, same]
  · rw [List.getElem?_eq_none (by omega), List.getElem?_eq_none (by omega)]

theorem numberAt_flatMap {words : List Word} {index : Nat} {word : Word}
    (found : words[index]? = some word) :
    numberAt (words.flatMap wordBytes) index = word.toNat := by
  have inside := (List.getElem?_eq_some_iff.mp found).1
  have length := length_flatMap_wordBytes words
  rw [Nat.mul_comm] at length
  rcases getElem?_wordsOfBytes length inside with ⟨other, there, number⟩
  rw [wordsOfBytes_flatMap, found] at there
  rw [← number, Option.some.inj there]

/-! ## The format -/

/--
The bytes of an image: zeros up to the instruction region, the words, and zeros
behind them.
-/
structure IsImage (words : List Word) (bytes : List UInt8) : Prop where
  length : bytes.length = 16380
  lead : ∀ index < 0x600, numberAt bytes index = 0
  program : ∀ index word, words[index]? = some word →
    numberAt bytes (0x600 + index) = word.toNat
  filling : ∀ index, words.length ≤ index → index < 0x9FF →
    numberAt bytes (0x600 + index) = 0

theorem IsImage.unique {words : List Word} {bytes other : List UInt8}
    (image : IsImage words bytes) (otherImage : IsImage words other) :
    bytes = other := by
  apply @eq_of_numberAt bytes other 0xFFF image.length otherImage.length
  intro index inside
  by_cases early : index < 0x600
  · rw [image.lead index early, otherImage.lead index early]
  · rcases Nat.exists_eq_add_of_le (Nat.le_of_not_lt early) with ⟨place, rfl⟩
    cases found : words[place]? with
    | some word =>
        rw [image.program place word found, otherImage.program place word found]
    | none =>
        rw [List.getElem?_eq_none_iff] at found
        rw [image.filling place found (by omega),
          otherImage.filling place found (by omega)]

/-- The instruction region of the image of a program. -/
def region (words : List Word) : List Word :=
  words ++ List.replicate (capacity - words.length) 0

theorem layout_eq (words : List Word) :
    layout words = List.replicate 0x600 0 ++ region words := by
  rw [layout, region, List.append_assoc]
  rfl

theorem length_region {words : List Word} (fits : words.length ≤ 0x9FF) :
    (region words).length = 0x9FF := by
  have capacity : capacity = 0x9FF := rfl
  rw [region, List.length_append, List.length_replicate, capacity]
  omega

theorem isImage_layout {words : List Word} (fits : words.length ≤ 0x9FF) :
    IsImage words ((layout words).flatMap wordBytes) := by
  have later {index : Nat} {word : Word}
      (found : (region words)[index]? = some word) :
      numberAt ((layout words).flatMap wordBytes) (0x600 + index) =
        word.toNat := by
    apply numberAt_flatMap
    rw [layout_eq, List.getElem?_append_right
      (by rw [List.length_replicate]; omega), List.length_replicate,
      Nat.add_sub_cancel_left, found]
  constructor
  · rw [length_flatMap_wordBytes, layout_eq, List.length_append,
      List.length_replicate, length_region fits]
  · intro index early
    have zero : (layout words)[index]? = some 0 := by
      rw [layout_eq, List.getElem?_append_left (by rwa [List.length_replicate]),
        List.getElem?_replicate, if_pos early]
    rw [numberAt_flatMap zero]
    rfl
  · intro index word found
    apply later
    rw [region, List.getElem?_append_left
      (List.getElem?_eq_some_iff.mp found).1, found]
  · intro index outside inside
    have zero : (region words)[index]? = some 0 := by
      have capacity : capacity = 0x9FF := rfl
      rw [region, List.getElem?_append_right outside, List.getElem?_replicate,
        capacity, if_pos (by omega)]
    rw [later zero]
    rfl

theorem parts_of_fits {words : List Word} (fits : words.length ≤ capacity) :
    parts words = .ok ((layout words).map wordBytes) :=
  if_neg (Nat.not_lt.mpr fits)

theorem parts_of_beyond {words : List Word} (beyond : capacity < words.length) :
    parts words = .error (.tooManyWords words.length) :=
  if_pos beyond

/-- Words that fit in the region have an image. -/
theorem write_eq_ok {words : List Word} (fits : words.length ≤ capacity) :
    write words = .ok ((layout words).flatMap wordBytes) := by
  rw [write, parts_of_fits fits]
  rfl

/--
Words that fit in the region have the image of the format, and others have none.
-/
theorem write_eq_ok_iff {words : List Word} {bytes : List UInt8} :
    write words = .ok bytes ↔ words.length ≤ 0x9FF ∧ IsImage words bytes := by
  constructor
  · intro written
    by_cases fits : words.length ≤ 0x9FF
    · rw [write_eq_ok fits] at written
      cases written
      exact ⟨fits, isImage_layout fits⟩
    · rw [write, parts_of_beyond (Nat.lt_of_not_le fits)] at written
      cases written
  · rintro ⟨fits, image⟩
    rw [write_eq_ok fits, (isImage_layout fits).unique image]

/-- An output that succeeds is the image. -/
theorem write_of_production {words : List Word}
    (whole : (production words).failure? = none) :
    write words = .ok (production words).content := by
  by_cases fits : words.length ≤ capacity
  · rw [write_eq_ok fits, production, parts_of_fits fits]
    exact congrArg Except.ok (content_of_success _).symm
  · rw [production, parts_of_beyond (Nat.lt_of_not_le fits)] at whole
    cases whole

/-! ## Reading -/

theorem findIdx?_isWide_eq_none_iff (words : List Word) :
    words.findIdx? isWide = none ↔ ∀ word ∈ words, word.toNat < 2 ^ 24 := by
  rw [List.findIdx?_eq_none_iff]
  simp [isWide]

/--
An image is read as the words of its instruction region, if none of them is
wide.
-/
theorem read_eq_ok_iff {bytes : List UInt8} {words : List Word} :
    read bytes = .ok words ↔
      bytes.length = 16380 ∧ wordsOfBytes (bytes.drop 0x1800) = words ∧
        ∀ word ∈ words, word.toNat < 2 ^ 24 := by
  have size : size = 16380 := rfl
  have start : offset * 4 = 0x1800 := rfl
  rw [← findIdx?_isWide_eq_none_iff, read, size, start]
  by_cases length : bytes.length = 16380
  · rw [if_neg (not_not.mpr length)]
    constructor
    · intro done
      dsimp only at done
      split at done
      case h_1 => cases done
      case h_2 narrow =>
        cases done
        exact ⟨length, rfl, narrow⟩
    · rintro ⟨-, rfl, narrow⟩
      simp only [narrow]
  · simp [length]

/--
Bytes can be read exactly if they are as many as those of an image and no word
is wide.
-/
theorem exists_read_iff (bytes : List UInt8) :
    (∃ words, read bytes = .ok words) ↔
      bytes.length = 16380 ∧
        ∀ index, 0x600 ≤ index → index < 0xFFF →
          numberAt bytes index < 2 ^ 24 := by
  have narrow_iff (length : bytes.length = 16380) :
      (∀ word ∈ wordsOfBytes (bytes.drop 0x1800), word.toNat < 2 ^ 24) ↔
        ∀ index, 0x600 ≤ index → index < 0xFFF →
          numberAt bytes index < 2 ^ 24 := by
    have rest : (bytes.drop (4 * 0x600)).length = 4 * 0x9FF := by
      rw [List.length_drop, length]
    rw [forall_wordsOfBytes_iff rest (· < 2 ^ 24)]
    simp only [numberAt_drop]
    constructor
    · intro narrow index low high
      rcases Nat.exists_eq_add_of_le low with ⟨place, rfl⟩
      exact narrow place (by omega)
    · intro narrow place inside
      exact narrow (0x600 + place) (by omega) (by omega)
  simp only [read_eq_ok_iff]
  constructor
  · rintro ⟨words, length, rfl, narrow⟩
    exact ⟨length, (narrow_iff length).mp narrow⟩
  · rintro ⟨length, narrow⟩
    exact ⟨_, length, rfl, (narrow_iff length).mpr narrow⟩

/-! ## Trailing zeros -/

/-- Zeros at the end of a sequence are dropped. -/
theorem trimTrailing_append_zeros (words : List Word) (count : Nat) :
    trimTrailing (words ++ List.replicate count 0) = trimTrailing words := by
  unfold trimTrailing
  rw [List.reverse_append, List.reverse_replicate]
  induction count with
  | zero => rfl
  | succ count ih => simp [List.replicate_succ]

/-- Only zeros are dropped, and all of those at the end. -/
theorem trimTrailing_spec (words : List Word) :
    (∃ count, words = trimTrailing words ++ List.replicate count 0) ∧
      (trimTrailing words).getLast? ≠ some 0 := by
  induction words using List.reverseRecOn with
  | nil => exact ⟨⟨0, rfl⟩, by simp [trimTrailing]⟩
  | append_singleton init last ih =>
      by_cases zero : last = 0
      · obtain ⟨⟨count, split⟩, ends⟩ := ih
        have same : trimTrailing (init ++ [last]) = trimTrailing init := by
          rw [zero]
          exact trimTrailing_append_zeros init 1
        rw [same]
        refine ⟨⟨count + 1, ?_⟩, ends⟩
        rw [List.replicate_succ', ← List.append_assoc, ← split, zero]
      · have same : trimTrailing (init ++ [last]) = init ++ [last] := by
          simp [trimTrailing, zero]
        rw [same]
        exact ⟨⟨0, by simp⟩, by simpa using zero⟩

/-! ## Round trips -/

theorem drop_layout (words : List Word) :
    ((layout words).flatMap wordBytes).drop 0x1800 =
      (region words).flatMap wordBytes := by
  rw [layout_eq, List.flatMap_append]
  apply List.drop_left'
  rw [length_flatMap_wordBytes, List.length_replicate]

/--
The image of words is read back as the whole region, unless one of the words is
wide.
-/
theorem read_layout_iff {words final : List Word}
    (fits : words.length ≤ 0x9FF) :
    read ((layout words).flatMap wordBytes) = .ok final ↔
      region words = final ∧ ∀ word ∈ words, word.toNat < 2 ^ 24 := by
  have narrow_iff : (∀ word ∈ region words, word.toNat < 2 ^ 24) ↔
      ∀ word ∈ words, word.toNat < 2 ^ 24 := by
    rw [region, List.forall_mem_append]
    apply and_iff_left
    intro word filling
    rw [List.eq_of_mem_replicate filling]
    decide
  rw [read_eq_ok_iff, drop_layout, wordsOfBytes_flatMap, ← narrow_iff]
  constructor
  · rintro ⟨-, rfl, narrow⟩
    exact ⟨rfl, narrow⟩
  · rintro ⟨rfl, narrow⟩
    exact ⟨(isImage_layout fits).length, rfl, narrow⟩

/--
The image of narrow words that fit in the region is read back as the whole
region.
-/
theorem read_layout {words : List Word} (fits : words.length ≤ capacity)
    (narrow : ∀ word ∈ words, word.toNat < 2 ^ 24) :
    read ((layout words).flatMap wordBytes) = .ok (region words) :=
  (read_layout_iff fits).mpr ⟨rfl, narrow⟩

theorem flatMap_zeros (count : Nat) :
    (List.replicate count (0 : Word)).flatMap wordBytes =
      List.replicate (count * 4) 0 := by
  have zero : wordBytes 0 = List.replicate 4 0 := rfl
  rw [List.flatMap_replicate, zero, List.flatten_replicate_replicate]

/--
Bytes that are read and start with zeros are the image of the words of their
region.
-/
theorem write_of_read {bytes : List UInt8} {words : List Word}
    (done : read bytes = .ok words)
    (zeros : ∀ byte ∈ bytes.take 0x1800, byte = 0) :
    write words = .ok bytes := by
  rcases read_eq_ok_iff.mp done with ⟨length, rfl, -⟩
  have rest : (bytes.drop 0x1800).length = 4 * 0x9FF := by
    rw [List.length_drop, length]
  rcases flatMap_wordsOfBytes rest with ⟨count, restBytes⟩
  have lead : bytes.take 0x1800 = List.replicate 0x1800 0 := by
    rw [List.eq_replicate_iff]
    exact ⟨by rw [List.length_take, length]; rfl, zeros⟩
  have full :
      region (wordsOfBytes (bytes.drop 0x1800)) =
        wordsOfBytes (bytes.drop 0x1800) := by
    rw [region, count]
    exact List.append_nil _
  rw [write_eq_ok (Nat.le_of_eq count), layout_eq, full, List.flatMap_append,
    flatMap_zeros, restBytes, ← lead, List.take_append_drop]

/-- Zeros at the end of a program have the same image as the zeros behind it. -/
theorem write_trimTrailing {words : List Word} (fits : words.length ≤ 0x9FF) :
    write (trimTrailing words) = write words := by
  rcases (trimTrailing_spec words).1 with ⟨count, split⟩
  have total := congrArg List.length split
  rw [List.length_append, List.length_replicate] at total
  have same : region (trimTrailing words) = region words := by
    have room :
        capacity - (trimTrailing words).length =
          count + (capacity - words.length) := by
      have capacity : capacity = 0x9FF := rfl
      omega
    rw [region, room, ← List.replicate_append_replicate, ← List.append_assoc,
      ← split, region]
  rw [write_eq_ok fits, write_eq_ok (show _ ≤ 0x9FF by omega), layout_eq,
    layout_eq, same]

/--
Words have an image exactly if they fit in the region, and otherwise nothing is
written; the image is read back, unless a word is wide, as the words and zeros
behind them.  Bytes are read exactly if they are as many as those of an image
and no word of the region is wide; if they start with zeros, they are the image
of what is read, with or without the zeros at its end.
-/
theorem write_read_inverse :
    (∀ words,
      ((∃ bytes, write words = .ok bytes) ↔ words.length ≤ 0x9FF) ∧
      (0x9FF < words.length →
        (production words).Withholds (.tooManyWords words.length)) ∧
      ∀ bytes, write words = .ok bytes →
        (production words).Delivers bytes ∧
        IsImage words bytes ∧
        ((∃ final, read bytes = .ok final) ↔
          ∀ word ∈ words, word.toNat < 2 ^ 24) ∧
        ∀ final, read bytes = .ok final →
          final = words ++ List.replicate (0x9FF - words.length) 0 ∧
            trimTrailing final = trimTrailing words) ∧
    ∀ bytes,
      ((∃ words, read bytes = .ok words) ↔
        bytes.length = 16380 ∧
          ∀ index, 0x600 ≤ index → index < 0xFFF →
            numberAt bytes index < 2 ^ 24) ∧
      ∀ words, read bytes = .ok words → (∀ byte ∈ bytes.take 0x1800, byte = 0) →
        write words = .ok bytes ∧ write (trimTrailing words) = .ok bytes := by
  constructor
  · intro words
    refine ⟨?_, ?_, ?_⟩
    · constructor
      · rintro ⟨bytes, written⟩
        exact (write_eq_ok_iff.mp written).1
      · intro fits
        exact ⟨_, write_eq_ok fits⟩
    · intro beyond
      rw [production, parts_of_beyond beyond]
      exact Production.withholds_ofParts _
    · intro bytes written
      rcases write_eq_ok_iff.mp written with ⟨fits, image⟩
      obtain rfl := (isImage_layout fits).unique image
      simp only [read_layout_iff fits]
      refine ⟨?_, image, ?_, ?_⟩
      · rw [production, parts_of_fits fits]
        exact Production.delivers_ofParts _
      · constructor
        · rintro ⟨-, -, narrow⟩
          exact narrow
        · intro narrow
          exact ⟨_, rfl, narrow⟩
      · rintro _ ⟨rfl, -⟩
        exact ⟨rfl, trimTrailing_append_zeros words _⟩
  · intro bytes
    refine ⟨exists_read_iff bytes, ?_⟩
    intro words done zeros
    have written := write_of_read done zeros
    refine ⟨written, ?_⟩
    rw [write_trimTrailing (write_eq_ok_iff.mp written).1, written]

/-- A word of all ones, with a zero in front of it and one behind it. -/
theorem write_read_inverse_ones :
    ∃ bytes final, write [0, 0xFFFFFF, 0] = .ok bytes ∧ read bytes = .ok final ∧
      final = [0, 0xFFFFFF, 0] ++ List.replicate 0x9FC 0 ∧
      trimTrailing final = [0, 0xFFFFFF] ∧
      (∀ byte ∈ bytes.take 0x1800, byte = 0) ∧
      write (trimTrailing final) = .ok bytes := by
  rcases write_read_inverse with ⟨ofWords, ofBytes⟩
  rcases ofWords [0, 0xFFFFFF, 0] with ⟨fits, -, images⟩
  rcases fits.mpr (by decide) with ⟨bytes, written⟩
  rcases images bytes written with ⟨-, -, readable, restored⟩
  rcases readable.mpr (by simp) with ⟨final, done⟩
  rcases restored final done with ⟨isRegion, trimmed⟩
  have zeros : ∀ byte ∈ bytes.take 0x1800, byte = 0 := by
    rw [write_eq_ok (by decide)] at written
    cases written
    rw [layout_eq, List.flatMap_append, flatMap_zeros,
      List.take_left' (List.length_replicate ..)]
    exact fun _ => List.eq_of_mem_replicate
  exact ⟨bytes, final, written, done, isRegion, by rw [trimmed]; decide, zeros,
    ((ofBytes bytes).2 final done zeros).2⟩

end Asm24.Image
