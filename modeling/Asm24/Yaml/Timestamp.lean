/-!
# Timestamps

A date, or a date with a time of day.  The time follows a letter T and ends with
a zone, or follows blanks and has none.  All numbers but the year have one digit
or two.
-/

namespace Asm24.Yaml

/-- A point in time, as the clock of its zone shows it. -/
structure Timestamp where
  year : Nat
  month : Nat
  day : Nat
  hour : Nat := 0
  minute : Nat := 0
  second : Nat := 0
  nanosecond : Nat := 0
  /-- Minutes ahead of universal time. -/
  zone : Int := 0
  deriving DecidableEq, Repr

namespace Timestamp

/-- The value of a decimal digit. -/
def digit? (char : Char) : Option Nat :=
  if char.isDigit then some (char.toNat - 48) else none

/-- A number of one digit or two at the start of a text. -/
def readNumber? : List Char → Option (Nat × List Char)
  | [] => none
  | first :: rest => do
      let tens ← digit? first
      match rest.head?.bind digit? with
      | some ones => return (10 * tens + ones, rest.drop 1)
      | none => return (tens, rest)

/-- A number of two digits at the start of a text. -/
def readPair? : List Char → Option (Nat × List Char)
  | first :: second :: rest => do
      return (10 * (← digit? first) + (← digit? second), rest)
  | _ => none

/-- The text after a character. -/
def after? (char : Char) : List Char → Option (List Char)
  | first :: rest => if first = char then some rest else none
  | [] => none

/-- Whether a year has a leap day. -/
def isLeap (year : Nat) : Bool :=
  year % 4 == 0 && (year % 100 != 0 || year % 400 == 0)

/-- How many days a month has. -/
def daysIn (year month : Nat) : Nat :=
  if month = 2 then (if isLeap year then 29 else 28)
  else if [4, 6, 9, 11].contains month then 30
  else 31

/-- A year of four digits, a month and a day. -/
def readDate? (text : List Char) : Option (Timestamp × List Char) := do
  let (century, text) ← readPair? text
  let (years, text) ← readPair? text
  let (month, text) ← readNumber? (← after? '-' text)
  let (day, text) ← readNumber? (← after? '-' text)
  let year := 100 * century + years
  if 1 ≤ month ∧ month ≤ 12 ∧ 1 ≤ day ∧ day ≤ daysIn year month then
    return ({ year, month, day }, text)
  else
    none

/--
The nanoseconds of the digits of a fraction; those beyond the ninth do not
count.
-/
def nanoseconds (digits : List Char) : Nat :=
  (digits ++ List.replicate 9 '0').take 9 |>.foldl
    (fun value digit => 10 * value + (digit.toNat - 48)) 0

/-- A fraction of a second at the start of a text, if there is one. -/
def readFraction : List Char → Nat × List Char
  | [] => (0, [])
  | mark :: rest =>
      let digits := rest.takeWhile Char.isDigit
      if (mark = '.' ∨ mark = ',') ∧ !digits.isEmpty then
        (nanoseconds digits, rest.drop digits.length)
      else
        (0, mark :: rest)

/-- An hour, a minute and a second, which may have a fraction. -/
def readTime? (date : Timestamp) (text : List Char) :
    Option (Timestamp × List Char) := do
  let (hour, text) ← readNumber? text
  let (minute, text) ← readNumber? (← after? ':' text)
  let (second, text) ← readNumber? (← after? ':' text)
  let (nanosecond, text) := readFraction text
  if hour < 24 ∧ minute < 60 ∧ second < 60 then
    return ({ date with hour, minute, second, nanosecond }, text)
  else
    none

/-- A zone: the letter Z, or a sign, hours and minutes. -/
def readZone? : List Char → Option Int
  | ['Z'] => some 0
  | sign :: text => do
      let (hours, text) ← readPair? text
      let (minutes, text) ← readPair? (← after? ':' text)
      let offset : Int := 60 * hours + minutes
      if 24 < hours ∨ 60 < minutes ∨ !text.isEmpty then none
      else if sign = '+' then some offset
      else if sign = '-' then some (-offset)
      else none
  | [] => none

/-- The timestamp that a text writes. -/
def read? (text : List Char) : Option Timestamp := do
  let (date, text) ← readDate? text
  match text with
  | [] => return date
  | separator :: rest =>
      if separator = 'T' ∨ separator = 't' then
        let (timestamp, rest) ← readTime? date rest
        return { timestamp with zone := ← readZone? rest }
      else if separator = ' ' then
        let (timestamp, rest) ← readTime? date (rest.dropWhile (· == ' '))
        if rest.isEmpty then return timestamp else none
      else
        none

/-- A number with zeros in front, up to a width. -/
def padded (width value : Nat) : String :=
  String.ofList ((Nat.toDigits 10 value).leftpad width '0')

/--
The fraction of a second with a point in front, and without zeros at its end.
-/
def fractionText (nanosecond : Nat) : String :=
  if nanosecond = 0 then ""
  else
    "." ++ String.ofList
      ((padded 9 nanosecond).toList.reverse.dropWhile (· == '0')).reverse

/-- The offset of a zone. -/
def zoneText (zone : Int) : String :=
  (if zone < 0 then "-" else "+") ++ padded 2 (zone.natAbs / 60) ++
    padded 2 (zone.natAbs % 60)

/--
A timestamp as text: date, time, offset and the name of the zone, or the offset
again.
-/
def toText (timestamp : Timestamp) : String :=
  padded 4 timestamp.year ++ "-" ++ padded 2 timestamp.month ++ "-" ++
    padded 2 timestamp.day ++
    " " ++ padded 2 timestamp.hour ++ ":" ++ padded 2 timestamp.minute ++ ":" ++
    padded 2 timestamp.second ++ fractionText timestamp.nanosecond ++ " " ++
    zoneText timestamp.zone ++ " " ++
    (if timestamp.zone = 0 then "UTC" else zoneText timestamp.zone)

end Timestamp

end Asm24.Yaml
