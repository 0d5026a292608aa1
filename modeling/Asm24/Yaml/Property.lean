import Asm24.Text.Numeral
import Asm24.Text.Quoted
import Asm24.Text.Utf8
import Asm24.Yaml.Cursor

/-!
# Properties and directives

A node may have an anchor, by which aliases refer to it, and a tag that says how
to read it.  A tag is written in full between angle brackets, or as a handle and
a suffix.  Directives in front of a document give the version and the meaning of
handles.
-/

namespace Asm24.Yaml

/-- Whether a text may follow the name of an anchor or of an alias. -/
def endsName (rest : List Char) : Bool :=
  endsWord rest ||
    rest.head?.any fun char =>
      char == '?' || char == ':' || char == ',' || char == ']' || char == '}' ||
        char == '%' ||
        char == '@' || char == Char.ofNat 0x60

/-- Read the name of an anchor or of an alias, from the sign in front of it. -/
def readName (cursor : Cursor) : Except Fault (String × Cursor) :=
  let inner := cursor.skip 1
  let name := inner.rest.takeWhile isWord
  let after := inner.skipWhile isWord
  if name.isEmpty || !endsName after.rest then
    .error (after.fault .noAnchorName cursor.mark.line)
  else
    .ok (String.ofList name, after)

/--
Whether a character may stand in the suffix of a tag, other than by an escape.
-/
def isSuffixChar (char : Char) : Bool :=
  isWord char || [';', '/', '?', ':', '@', '&', '=', '+', '$', ',', '.', '!',
    '~', '*', '(', ')', '[', ']'].contains char || char == Text.singleQuote

/-- A byte that is written as a percent sign and two hexadecimal digits. -/
def escapedByte? : List Char → Option Nat
  | '%' :: high :: low :: _ => do
      return (← Text.digitValue? high) * 16 + (← Text.digitValue? low)
  | _ => none

/-- How many bytes a character has that starts with a byte. -/
def escapedLength? (lead : Nat) : Option Nat :=
  if lead < 0x80 then some 1
  else if lead < 0xC0 then none
  else if lead < 0xE0 then some 2
  else if lead < 0xF0 then some 3
  else if lead < 0xF8 then some 4
  else none

/-- Read the remaining bytes of an escaped character. -/
def readEscapedTrail :
    (count : Nat) → List Char → Except TokenProblem (List UInt8)
  | 0, _ => .ok []
  | count + 1, text => do
      match escapedByte? text with
      | none => .error .noEscapedOctet
      | some byte =>
          if byte < 0x80 ∨ 0xC0 ≤ byte then
            .error .badEscapedTrail
          else
            return UInt8.ofNat byte :: (← readEscapedTrail count (text.drop 3))

/-- Read the bytes of an escaped character. -/
def readEscapedChar (text : List Char) : Except TokenProblem (List UInt8) := do
  match escapedByte? text with
  | none => .error .noEscapedOctet
  | some lead =>
      match escapedLength? lead with
      | none => .error .badEscapedLead
      | some length =>
          return UInt8.ofNat lead ::
            (← readEscapedTrail (length - 1) (text.drop 3))

/-- Read the suffix of a tag on, after `skipped` characters of an escape. -/
def readSuffixFrom (start : Nat) :
    (skipped : Nat) → List Char → Mark → (taken : List UInt8) →
      Except Fault (List UInt8 × Cursor)
  | _, [], mark, taken => .ok (taken, ⟨[], mark⟩)
  | skipped + 1, char :: rest, mark, taken =>
      readSuffixFrom start skipped rest (mark.after char) taken
  | 0, char :: rest, mark, taken =>
      if char = '%' then
        match readEscapedChar (char :: rest) with
        | .error problem => .error (.token problem start mark.line)
        | .ok bytes =>
            readSuffixFrom start (3 * bytes.length - 1) rest (mark.after char)
              (taken ++ bytes)
      else if isSuffixChar char then
        readSuffixFrom start 0 rest (mark.after char)
          (taken ++ String.utf8EncodeChar char)
      else
        .ok (taken, ⟨char :: rest, mark⟩)

/-- Read the suffix of a tag; `found` says that a part of it is already read. -/
def readSuffix (start : Nat) (found : Bool) (cursor : Cursor) :
    Except Fault (String × Cursor) := do
  let (bytes, after) ← readSuffixFrom start 0 cursor.rest cursor.mark []
  if !found && after.rest.length = cursor.rest.length then
    .error (after.fault .noTagSuffix start)
  else
    return (String.ofList (Text.decode bytes), after)

/--
The handle at the start of a text: two marks with a word between, or a part of
one.
-/
def leadingHandle : List Char → List Char
  | '!' :: rest =>
      '!' :: rest.takeWhile isWord ++ ((rest.dropWhile isWord).take 1).filter
        (· == '!')
  | _ => []

/-- A tag as it is written: a handle, which may be empty, and a suffix. -/
structure WrittenTag where
  handle : String
  suffix : String
  deriving DecidableEq, Repr

/-- Read a tag that is written in full. -/
def readFullTag (start : Nat) (cursor : Cursor) :
    Except Fault (WrittenTag × Cursor) := do
  let (suffix, after) ← readSuffix start false (cursor.skip 2)
  if after.rest.head? = some '>' then
    return (⟨"", suffix⟩, after.skip 1)
  else
    .error (after.fault .noTagClose start)

/--
Read a tag that is written by a handle and a suffix; a single mark is a tag of
its own.
-/
def readShortTag (start : Nat) (cursor : Cursor) :
    Except Fault (WrittenTag × Cursor) := do
  let handle := leadingHandle cursor.rest
  let after := cursor.skip handle.length
  if 1 < handle.length ∧ handle.getLast? = some '!' then
    let (suffix, after) ← readSuffix start false after
    return (⟨String.ofList handle, suffix⟩, after)
  else
    let (rest, after) ← readSuffix start true after
    let suffix := String.ofList (handle.drop 1) ++ rest
    return (if suffix = "" then ⟨"", "!"⟩ else ⟨"!", suffix⟩, after)

/-- Read a tag. -/
def readTag (cursor : Cursor) : Except Fault (WrittenTag × Cursor) := do
  let start := cursor.mark.line
  let (tag, after) ←
    if (cursor.rest.drop 1).head? = some '<' then readFullTag start cursor
    else readShortTag start cursor
  if endsWord after.rest then
    return (tag, after)
  else
    .error (after.fault .noBlankOrBreak start)

/-- A directive. -/
inductive Directive where
  | version (major minor : Nat)
  | handle (name replacement : String)
  deriving DecidableEq, Repr

/-- Read a number of a version, which has one or two digits. -/
def readVersionNumber (start : Nat) (cursor : Cursor) :
    Except Fault (Nat × Cursor) :=
  let digits := cursor.rest.takeWhile Char.isDigit
  if digits.isEmpty then
    .error (cursor.fault .noVersion start)
  else if 2 < digits.length then
    .error (cursor.fault .longVersion start)
  else
    .ok (digits.foldl (fun value digit => 10 * value + (digit.toNat - 48)) 0,
      cursor.skip digits.length)

/-- Read the version of a document. -/
def readVersion (start : Nat) (cursor : Cursor) :
    Except Fault (Directive × Cursor) := do
  let (major, after) ← readVersionNumber start (cursor.skipWhile isBlank)
  if after.rest.head? ≠ some '.' then
    .error (after.fault .noVersionPoint start)
  else
    let (minor, after) ← readVersionNumber start (after.skip 1)
    return (.version major minor, after)

/-- Read the meaning of a handle. -/
def readHandle (start : Nat) (cursor : Cursor) :
    Except Fault (Directive × Cursor) := do
  let cursor := cursor.skipWhile isBlank
  let handle := leadingHandle cursor.rest
  let after := cursor.skip handle.length
  if handle.getLast? ≠ some '!' then
    .error (after.fault .noTagMark start)
  else if !after.rest.head?.any isBlank then
    .error (after.fault .noBlank start)
  else
    let (replacement, after) ← readSuffix start false (after.skipWhile isBlank)
    if endsWord after.rest then
      return (.handle (String.ofList handle) replacement, after)
    else
      .error (after.fault .noBlankOrBreak start)

/-- Read a directive with the rest of its line. -/
def readDirective (cursor : Cursor) : Except Fault (Directive × Cursor) := do
  let start := cursor.mark.line
  let inner := cursor.skip 1
  let name := String.ofList (inner.rest.takeWhile isWord)
  let after := inner.skipWhile isWord
  if name = "" then
    .error (after.fault .noDirectiveName start)
  else if !endsWord after.rest then
    .error (after.fault .badDirectiveName start)
  else
    let (directive, after) ←
      if name = "YAML" then readVersion start after
      else if name = "TAG" then readHandle start after
      else .error (after.fault .unknownDirective start)
    let after := after.skipWhile isBlank
    let after :=
      if after.rest.head? = some '#' then
        after.skipWhile (!isBreak ·)
      else
        after
    if endsLine after.rest then
      return (directive, after.skip 1)
    else
      .error (after.fault .noCommentOrBreak start)

end Asm24.Yaml
