/-!
# Cutting text at separators

A text is cut at every character of a class, and the separators are dropped.
There is always one piece more than there are separators, so the empty text
gives one empty piece.
-/

namespace Asm24.Text

/-- The pieces of a text between the characters that separate. -/
def split (separates : Char → Bool) : List Char → List (List Char)
  | [] => [[]]
  | char :: rest =>
      if separates char then
        [] :: split separates rest
      else
        (split separates rest).modifyHead (char :: ·)

/-- Cutting yields one piece more than there are separators. -/
@[simp]
theorem length_split (separates : Char → Bool) (text : List Char) :
    (split separates text).length = text.countP separates + 1 := by
  induction text with
  | nil => rfl
  | cons char rest ih =>
      by_cases separator : separates char = true
      · simp [split, separator, ih]
      · simp [split, separator, ih]

end Asm24.Text
