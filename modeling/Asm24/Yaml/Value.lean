import Asm24.Text.Base64
import Asm24.Text.Binary64
import Asm24.Text.Numeral
import Asm24.Text.Utf8
import Asm24.Yaml.Fault
import Asm24.Yaml.Timestamp

/-!
# Values

The value of a scalar is told by its form: a plain scalar may be empty, a truth
value, a number or a timestamp, and is text otherwise.  Quoted scalars are text.
A tag asks for a kind of value, and the form has to fit.
-/

namespace Asm24.Yaml

/-- A value of a document. -/
inductive Value where
  | null
  | boolean (value : Bool)
  | integer (value : Int)
  | float (value : Text.Binary64)
  | timestamp (value : Timestamp)
  | text (value : String)
  /-- A sequence or a mapping, whose parts have no use here. -/
  | collection
  deriving DecidableEq, Repr

namespace Value

/-- The tag of the kind of a value. -/
def tag : Value → String
  | .null => "!!null"
  | .boolean _ => "!!bool"
  | .integer _ => "!!int"
  | .float _ => "!!float"
  | .timestamp _ => "!!timestamp"
  | .text _ => "!!str"
  | .collection => ""

/-- The values with spellings of their own. -/
def spelled? (text : String) : Option Value :=
  if ["", "~", "null", "Null", "NULL"].contains text then some .null
  else if ["true", "True", "TRUE"].contains text then some (.boolean true)
  else if ["false", "False", "FALSE"].contains text then some (.boolean false)
  else if [".nan", ".NaN", ".NAN"].contains text then some (.float .notANumber)
  else if [".inf", ".Inf", ".INF", "+.inf", "+.Inf", "+.INF"].contains text then
    some (.float (.infinite false))
  else if ["-.inf", "-.Inf", "-.INF"].contains text then
    some (.float (.infinite true))
  else none

/-- The signed 64-bit integer of a base, with a sign in front of the digits. -/
def signedOfBase? (base : Nat) (text : List Char) : Option Int :=
  let (negative, digits) := Text.Decimal.sign text
  (Text.readSigned base negative digits).toOption

/-- The unsigned 64-bit integer of a base. -/
def unsignedOfBase? (base : Nat) (digits : List Char) : Option Int :=
  (Text.readNatural base digits).toOption.map Int.ofNat

/--
The 64-bit integer that a text writes, with or without a mark of the base.
-/
def integer? (text : List Char) : Option Int :=
  (Text.readInteger text).toOption <|>
    let (base, digits) := Text.baseMark text
    unsignedOfBase? base digits

/--
The integer of a text that has its sign between the mark of the base and the
digits.
-/
def markedInteger? : List Char → Option Int
  | '0' :: 'b' :: digits => signedOfBase? 2 digits <|> unsignedOfBase? 2 digits
  | '0' :: 'o' :: digits => signedOfBase? 8 digits <|> unsignedOfBase? 8 digits
  | '-' :: '0' :: 'b' :: digits => signedOfBase? 2 ('-' :: digits)
  | '-' :: '0' :: 'o' :: digits => signedOfBase? 8 ('-' :: digits)
  | _ => none

/-- The floating-point number that a decimal writes, if it is in range. -/
def float? (text : List Char) : Option Text.Binary64 :=
  (Text.Decimal.read? text).bind Text.Decimal.toBinary64?

/-- Whether every underscore stands between two digits. -/
def betweenDigits : (afterDigit : Bool) → List Char → Bool
  | _, [] => true
  | afterDigit, '_' :: rest =>
      afterDigit && rest.head?.any Char.isDigit && betweenDigits false rest
  | _, char :: rest => betweenDigits char.isDigit rest

/-- A text without its underscores. -/
def withoutUnderscores (text : List Char) : List Char :=
  text.filter (· != '_')

/--
The number that a text writes which starts with a digit or a sign; underscores
do not count.
-/
def number? (text : List Char) : Option Value :=
  let digits := withoutUnderscores text
  (integer? digits).map .integer <|> (float? digits).map .float <|>
    (markedInteger? digits).map .integer

/-- The number that a text writes which starts with a point. -/
def fraction? (text : List Char) : Option Value :=
  if betweenDigits false text then
    (float? (withoutUnderscores text)).map .float
  else
    none

/--
The value of a plain scalar.  Timestamps are told apart only if they are asked
for.
-/
def ofPlain (timestamps : Bool) (text : String) : Value :=
  let chars := text.toList
  let found? :=
    match chars with
    | [] => none
    | first :: _ =>
        if first = '.' then fraction? chars
        else if first.isDigit ∨ first = '+' ∨ first = '-' then
          (if timestamps then (Timestamp.read? chars).map .timestamp else none)
            <|> number? chars
        else none
  (spelled? text <|> found?).getD (.text text)

/-- The tags whose values are told by their form. -/
def formTags : List String :=
  ["!!bool", "!!int", "!!float", "!!null", "!!timestamp"]

/-- The value of a scalar with a tag that asks for a kind of value. -/
def ofTagged (tag text : String) : Except Fault Value :=
  let value := ofPlain (tag == "!!timestamp") text
  let mismatch : Except Fault Value :=
    .error (.meaning (.wrongTag value.tag text tag))
  if value.tag = tag then
    .ok value
  else
    match value with
    | .integer number =>
        if tag = "!!float" ∧ number < 0x8000000000000000 then
          .ok (.float (Text.Binary64.ofInt number))
        else
          mismatch
    | _ => mismatch

/-- The text of a scalar with the tag for bytes. -/
def ofBinary (text : String) : Except Fault Value :=
  match Text.ofBase64? text.toList with
  | some bytes => .ok (.text (String.ofList (Text.decode bytes)))
  | none => .error (.meaning .invalidBase64)

/--
The value of a scalar.  A tag without a meaning of its own leaves the text as it
is.
-/
def ofScalar (tag : String) (plain : Bool) (text : String) :
    Except Fault Value :=
  if tag = "" then
    .ok (if plain then ofPlain true text else .text text)
  else if formTags.contains tag then
    ofTagged tag text
  else if tag = "!!binary" then
    ofBinary text
  else
    .ok (.text text)

/-- A value as text; a collection has none. -/
def toText : Value → String
  | .null => ""
  | .boolean value => if value then "true" else "false"
  | .integer value => toString value
  | .float value => value.toText
  | .timestamp value => value.toText
  | .text value => value
  | .collection => ""

end Value

end Asm24.Yaml
