import Asm24.Files.Writer

/-!
# Output through a buffer to a writer

A buffer takes in a part of the output by one of three rules: it collects the
part, hands it on, or fills up with the start of the part, is handed on, and
takes in the rest.  By none of them a byte is lost or changes its place, and
what is still collected always fits into the buffer.

So the pieces of a producer that succeeds hold all of its parts, however they
are cut.  If the producer fails, they hold the parts up to what was collected,
which is no more than the buffer can hold.

A writer takes these pieces up to the first on which it fails.  `Delivers` says
what comes of it, for every writer: it has taken all of the output, or a start
of it, and then its fault is the answer.
-/

namespace Asm24.Files

/-! ## Rules of the buffer -/

namespace Buffer

variable {written : List (List UInt8)} {pending part : List UInt8}

theorem add_of_fits (fits : part.length ≤ capacity - pending.length) :
    add ⟨written, pending⟩ part = ⟨written, pending ++ part⟩ := by
  rw [add, if_pos fits]

theorem add_of_long (long : capacity < part.length) :
    add ⟨written, []⟩ part = ⟨written ++ [part], []⟩ := by
  have beyond : ¬ part.length ≤ capacity - ([] : List UInt8).length :=
    Nat.not_le.mpr long
  rw [add, if_neg beyond]
  rfl

/--
A part that goes beyond the free space fills the buffer, and its rest is taken
in anew.
-/
theorem add_of_overflow
    (some : pending ≠ []) (beyond : capacity - pending.length < part.length) :
    add ⟨written, pending⟩ part =
      add ⟨written ++ [pending ++ part.take (capacity - pending.length)], []⟩
        (part.drop (capacity - pending.length)) := by
  have collected : ¬ pending.isEmpty = true := by simpa using some
  rw [add, if_neg (Nat.not_le.mpr beyond), if_neg collected]
  by_cases rest : (part.drop (capacity - pending.length)).length ≤ capacity
  · rw [add_of_fits rest, if_pos rest]
    rfl
  · rw [add_of_long (Nat.lt_of_not_le rest), if_neg rest]

theorem pending_add_nil_le :
    (add ⟨written, []⟩ part).pending.length ≤ capacity := by
  by_cases fits : part.length ≤ capacity
  · rw [add_of_fits fits]
    exact fits
  · rw [add_of_long (Nat.lt_of_not_le fits)]
    exact Nat.zero_le capacity

/-- What is collected never exceeds the buffer. -/
theorem pending_add_le {buffer : Buffer}
    (within : buffer.pending.length ≤ capacity) (part : List UInt8) :
    (buffer.add part).pending.length ≤ capacity := by
  rcases buffer with ⟨written, pending⟩
  by_cases fits : part.length ≤ capacity - pending.length
  · rw [add_of_fits fits, List.length_append]
    exact Nat.add_le_of_le_sub' within fits
  · by_cases none : pending = []
    · rw [none]
      exact pending_add_nil_le
    · rw [add_of_overflow none (Nat.lt_of_not_le fits)]
      exact pending_add_nil_le

theorem pending_addAll_le {buffer : Buffer}
    (within : buffer.pending.length ≤ capacity) (parts : List (List UInt8)) :
    (buffer.addAll parts).pending.length ≤ capacity := by
  induction parts generalizing buffer with
  | nil => exact within
  | cons part rest ih => exact ih (pending_add_le within part)

/-- Everything that was added. -/
def content (buffer : Buffer) : List UInt8 :=
  buffer.written.flatten ++ buffer.pending

theorem content_add_nil :
    (add ⟨written, []⟩ part).content = written.flatten ++ part := by
  by_cases fits : part.length ≤ capacity
  · rw [add_of_fits fits]
    rfl
  · rw [add_of_long (Nat.lt_of_not_le fits)]
    simp [content]

/-- Adding a part appends it to the content. -/
theorem content_add (buffer : Buffer) (part : List UInt8) :
    (buffer.add part).content = buffer.content ++ part := by
  rcases buffer with ⟨written, pending⟩
  by_cases fits : part.length ≤ capacity - pending.length
  · rw [add_of_fits fits, content, content, List.append_assoc]
  · by_cases none : pending = []
    · rw [none, content_add_nil, content, List.append_nil]
    · rw [add_of_overflow none (Nat.lt_of_not_le fits), content_add_nil]
      simp [content]

theorem content_addAll (buffer : Buffer) (parts : List (List UInt8)) :
    (buffer.addAll parts).content = buffer.content ++ parts.flatten := by
  induction parts generalizing buffer with
  | nil => simp [addAll]
  | cons part rest ih =>
      rw [List.flatten_cons, ← List.append_assoc, ← content_add]
      exact ih (buffer.add part)

theorem flatten_flushed (buffer : Buffer) :
    buffer.flushed.flatten = buffer.content := by
  rw [flushed, content]
  split
  case isTrue none => rw [List.isEmpty_iff.mp none, List.append_nil]
  case isFalse => simp

end Buffer

/-! ## Productions -/

section Production

variable {failure : Type} (parts : List (List UInt8))

/-- A producer that succeeds leaves all of its parts. -/
theorem content_of_success :
    Production.content (⟨parts, none⟩ : Production failure) = parts.flatten :=
  (Buffer.flatten_flushed _).trans (Buffer.content_addAll .empty parts)

/-- A producer that fails leaves its parts up to what was collected. -/
theorem exists_lost_of_failure (error : failure) :
    ∃ lost, Production.content ⟨parts, some error⟩ ++ lost = parts.flatten ∧
      lost.length ≤ Buffer.capacity :=
  ⟨(Buffer.empty.addAll parts).pending, Buffer.content_addAll .empty parts,
    Buffer.pending_addAll_le (Nat.zero_le _) parts⟩

end Production

/-! ## Writers -/

namespace Writer

variable {fault : Type}

/--
A writer takes all that is handed to it, or fails on a piece, of which it then
has taken a part behind what came before.
-/
theorem takeAll_cases (writer : Writer fault) (taken : List UInt8)
    (pieces : List (List UInt8)) :
    writer.takeAll taken pieces = (taken ++ pieces.flatten, none) ∨
      ∃ before piece left count reason,
        writer.fails? before piece = some (count, reason) ∧
        before ++ piece ++ left = taken ++ pieces.flatten ∧
        writer.takeAll taken pieces =
          (before ++ piece.take count, some reason) := by
  induction pieces generalizing taken with
  | nil => exact Or.inl (by simp [takeAll])
  | cons piece rest ih =>
      rw [takeAll, List.flatten_cons, ← List.append_assoc]
      cases failed : writer.fails? taken piece with
      | none => exact ih (taken ++ piece)
      | some fault =>
          exact Or.inr ⟨taken, piece, rest.flatten, fault.1, fault.2, failed,
            rfl, rfl⟩

/--
A writer with limited room takes as much as it has room for, however it is cut.
-/
theorem takeAll_limited {limit : Nat} {taken : List UInt8}
    (within : taken.length ≤ limit) (reason : fault)
    (pieces : List (List UInt8)) :
    (limited limit reason).takeAll taken pieces =
      ((taken ++ pieces.flatten).take limit,
        if limit < (taken ++ pieces.flatten).length then some reason
          else none) := by
  induction pieces generalizing taken with
  | nil => simp [takeAll, Nat.not_lt.mpr within, List.take_of_length_le within]
  | cons piece rest ih =>
      rw [takeAll, List.flatten_cons, ← List.append_assoc]
      by_cases beyond : limit < taken.length + piece.length
      · have failed : (limited limit reason).fails? taken piece =
            some (limit - taken.length, reason) :=
          if_pos beyond
        have more : limit < (taken ++ piece ++ rest.flatten).length := by
          rw [List.length_append, List.length_append]
          omega
        have room : limit - taken.length ≤ piece.length := by omega
        rw [failed, if_pos more, List.append_assoc, List.take_append,
          List.take_of_length_le within, List.take_append_of_le_length room]
      · have fits : (limited limit reason).fails? taken piece = none :=
          if_neg beyond
        rw [fits]
        refine ih ?_
        rw [List.length_append]
        omega

end Writer

/-! ## Deliveries -/

/--
A production of some content, for every writer.  The writer takes the content
whole, or it fails on a piece of it, and its reason is the answer.  One with
limited room takes as much as it has room for.
-/
structure Production.Delivers {failure : Type} (production : Production failure)
    (content : List UInt8) : Prop where
  answer : ∀ {fault : Type} (writer : Writer fault),
    production.deliver writer = (.ok (), content) ∨
      ∃ before piece left count reason,
        writer.fails? before piece = some (count, reason) ∧
        before ++ piece ++ left = content ∧
        production.deliver writer =
          (.error (.writer reason), before ++ piece.take count)
  limited : ∀ {fault : Type} (limit : Nat) (reason : fault),
    production.deliver (.limited limit reason) =
      if limit < content.length then
        (.error (.writer reason), content.take limit)
      else
        (.ok (), content)

/-- A production that hands nothing to any writer, and answers with an error. -/
def Production.Withholds {failure : Type} (production : Production failure)
    (error : failure) : Prop :=
  ∀ {fault : Type} (writer : Writer fault),
    production.deliver writer = (.error (.producer error), [])

namespace Production

variable {failure : Type}

theorem delivers_ofParts (parts : List (List UInt8)) :
    (ofParts (.ok parts) : Production failure).Delivers parts.flatten := by
  have content : (ofParts (.ok parts) : Production failure).pieces.flatten =
      parts.flatten :=
    content_of_success parts
  constructor
  · intro fault writer
    rcases writer.takeAll_cases []
      (ofParts (.ok parts) : Production failure).pieces with
      all | ⟨before, piece, left, count, reason, failed, start, some⟩
    · refine Or.inl ?_
      rw [deliver, all, content]
      rfl
    · refine Or.inr ⟨before, piece, left, count, reason, failed, ?_, ?_⟩
      · rw [start, content, List.nil_append]
      · rw [deliver, some]
  · intro fault limit reason
    rw [deliver, Writer.takeAll_limited (Nat.zero_le limit), content,
      List.nil_append]
    by_cases beyond : limit < parts.flatten.length
    · rw [if_pos beyond, if_pos beyond]
    · rw [if_neg beyond, if_neg beyond,
        List.take_of_length_le (Nat.le_of_not_lt beyond)]
      rfl

/-- Texts are written one behind the other. -/
theorem delivers_ofTexts (texts : List String) :
    (ofTexts (.ok texts) : Production failure).Delivers
      (Text.encode (String.join texts).toList) := by
  have joined : Text.encode (String.join texts).toList =
      (texts.map (fun text => Text.encode text.toList)).flatten := by
    rw [Text.encode, String.toList_join, List.flatMap_assoc]
    rfl
  rw [joined]
  exact delivers_ofParts _

theorem withholds_ofParts (error : failure) :
    (ofParts (.error error)).Withholds error :=
  fun _ => rfl

end Production

end Asm24.Files
