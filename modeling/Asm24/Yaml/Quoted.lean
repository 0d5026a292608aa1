import Asm24.Text.Numeral
import Asm24.Text.Quoted
import Asm24.Yaml.Gap

/-!
# Quoted scalars

Between single quotes only the quote itself is written specially, by doubling
it.  Between double quotes a backslash starts an escape: a letter for a
character, a code in hexadecimal, or a line break that vanishes together with
the blanks after it.
-/

namespace Asm24.Yaml

/-- What a character after a backslash stands for. -/
inductive Escape where
  | char (value : Char)
  /-- The character of a code with a number of hexadecimal digits. -/
  | code (digits : Nat)
  deriving DecidableEq, Repr

/-- The escape that a character names. -/
def escape? (char : Char) : Option Escape :=
  match char with
  | '0' => some (.char (Char.ofNat 0x00))
  | 'a' => some (.char (Char.ofNat 0x07))
  | 'b' => some (.char (Char.ofNat 0x08))
  | 't' => some (.char '\t')
  | '\t' => some (.char '\t')
  | 'n' => some (.char '\n')
  | 'v' => some (.char (Char.ofNat 0x0B))
  | 'f' => some (.char (Char.ofNat 0x0C))
  | 'r' => some (.char '\r')
  | 'e' => some (.char (Char.ofNat 0x1B))
  | ' ' => some (.char ' ')
  | '"' => some (.char '"')
  | '\\' => some (.char '\\')
  | 'N' => some (.char (Char.ofNat 0x85))
  | '_' => some (.char (Char.ofNat 0xA0))
  | 'L' => some (.char (Char.ofNat 0x2028))
  | 'P' => some (.char (Char.ofNat 0x2029))
  | 'x' => some (.code 2)
  | 'u' => some (.code 4)
  | 'U' => some (.code 8)
  | _ => if char = Text.singleQuote then some (.char char) else none

/--
The code that a number of hexadecimal digits at the start of a text spells.
-/
def readCode? : (digits : Nat) → List Char → (code : Nat) → Option Nat
  | 0, _, code => some code
  | _ + 1, [], _ => none
  | digits + 1, char :: rest, code => do
      let digit ← Text.digitValue? char
      readCode? digits rest (code * 16 + digit)

/--
The character that the text after a backslash stands for, and how long that text
is.
-/
def readEscape : List Char → Except TokenProblem (Char × Nat)
  | [] => .error .unknownEscape
  | char :: rest =>
      match escape? char with
      | none => .error .unknownEscape
      | some (.char value) => .ok (value, 1)
      | some (.code digits) =>
          match readCode? digits rest 0 with
          | none => .error .noEscapeDigit
          | some code =>
              if (0xD800 ≤ code ∧ code ≤ 0xDFFF) ∨ 0x10FFFF < code then
                .error .invalidEscapeCode
              else
                .ok (Char.ofNat code, digits + 1)

/-- A quoted scalar that has been read. -/
structure QuotedScalar where
  text : List Char
  cursor : Cursor
  deriving Repr

/--
Read a quoted scalar on, after `skipped` characters that belong to an escape.
`taken` is the text so far in reverse; `fresh` says that a gap or the start of
the scalar came directly before.
-/
def readQuotedFrom (single : Bool) (start : Nat) :
    (skipped : Nat) → List Char → Mark → (fresh : Bool) → Gap →
      (taken : List Char) →
      Except Fault QuotedScalar
  | _, [], mark, _, _, _ => .error (.token .endInQuotes start mark.line)
  | skipped + 1, char :: rest, mark, fresh, gap, taken =>
      readQuotedFrom single start skipped rest (mark.after char) fresh gap taken
  | 0, char :: rest, mark, fresh, gap, taken =>
      if isBlank char || isBreak char then
        readQuotedFrom single start 0 rest (mark.after char) true
          (gap.add char) taken
      else if fresh && atDocumentMark mark (char :: rest) then
        .error (.token .documentMarkInQuotes start mark.line)
      else
        let joined := gap.text.reverse ++ taken
        if single then
          if char != Text.singleQuote then
            readQuotedFrom single start 0 rest (mark.after char) false .none
              (char :: joined)
          else if rest.head? == some Text.singleQuote then
            readQuotedFrom single start 1 rest (mark.after char) false .none
              (char :: joined)
          else
            .ok ⟨joined.reverse, ⟨rest, mark.after char⟩⟩
        else if char == '"' then
          .ok ⟨joined.reverse, ⟨rest, mark.after char⟩⟩
        else if char != '\\' then
          readQuotedFrom single start 0 rest (mark.after char) false .none
            (char :: joined)
        else if rest.head?.any isBreak then
          readQuotedFrom single start 1 rest (mark.after char) true
            (.breaks Option.none []) joined
        else
          match readEscape rest with
          | .error problem => .error (.token problem start mark.line)
          | .ok (value, length) =>
              let taken := value :: joined
              readQuotedFrom single start length rest (mark.after char) false
                .none taken

/-- Read a quoted scalar, from its first quotation mark. -/
def readQuoted (single : Bool) (cursor : Cursor) : Except Fault QuotedScalar :=
  let inner := cursor.skip 1
  readQuotedFrom single cursor.mark.line 0 inner.rest inner.mark true .none []

end Asm24.Yaml
