import Asm24.Text.Split

/-!
# White space

White space is the Unicode property: the controls from tab to carriage return,
the space, the next-line control, the no-break space and the spaces and
separators of the general punctuation and CJK blocks.  Zero-width characters are
not white space.

A text is trimmed by dropping white space at both ends, and its words are the
pieces between runs of white space.
-/

namespace Asm24.Text

/-- Whether a character is white space. -/
def isBlank (char : Char) : Bool :=
  let code := char.toNat
  (0x09 ≤ code && code ≤ 0x0D) || code == 0x20 || code == 0x85 ||
    code == 0xA0 ||
    code == 0x1680 || (0x2000 ≤ code && code ≤ 0x200A) || code == 0x2028 ||
    code == 0x2029 || code == 0x202F || code == 0x205F || code == 0x3000

/-- The text without the white space at its two ends. -/
def trim (text : List Char) : List Char :=
  ((text.dropWhile isBlank).reverse.dropWhile isBlank).reverse

/-- The maximal pieces of a text that hold no white space. -/
def words (text : List Char) : List (List Char) :=
  (split isBlank text).filter (fun piece => !piece.isEmpty)

end Asm24.Text
