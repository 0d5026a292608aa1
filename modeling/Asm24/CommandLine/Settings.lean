import Asm24.CommandLine.Arguments
import Asm24.Yaml.Document

/-!
# Settings

A setting is taken from the flag if it was given, else from the environment
variable of its name if that is not empty, else from the settings file, else it
has its default.

The settings file is a document of entries, with keys in any case.  An entry
without a value counts as not set.
-/

namespace Asm24.CommandLine

/--
The value of an entry as a Boolean: a number is true unless zero, and other text
is false.
-/
def toBoolean : Yaml.Value → Bool
  | .boolean value => value
  | .integer value => value != 0
  | .float value => !value.isZero
  | .text value => (readBoolean? value).getD false
  | _ => false

/--
A character of a key in lower case.  Settings have ASCII names, so beyond ASCII
only the two letters count whose lower case is an ASCII letter.
-/
def lowerKeyChar (char : Char) : Char :=
  if char.toNat = 0x130 then 'i' else if char.toNat = 0x212A then 'k'
    else char.toLower

/--
The entries of a settings file that have a value, with keys in lower case.
-/
def readSettings (content : List UInt8) :
    Except Yaml.Fault (List Yaml.Entry) := do
  let entries ← Yaml.readEntries content
  return entries.filterMap fun (key, value) =>
    if value == .null then none
    else some (String.ofList (key.toList.map lowerKeyChar), value)

/-- Everywhere that a setting may come from. -/
structure Settings where
  arguments : Arguments := {}
  environment : String → Option String := fun _ => none
  file : List Yaml.Entry := []

namespace Settings

/-- The environment variable of a setting. -/
def variableName (key : String) : String :=
  "BASM_" ++ String.ofList
    (key.toList.map (fun char => if char = '-' then '_' else char.toUpper))

/-- The value of a setting in the environment, unless it is empty. -/
def fromEnvironment? (settings : Settings) (key : String) : Option String :=
  (settings.environment (variableName key)).filter (· != "")

/-- A setting that is text. -/
def text (settings : Settings) (key default : String) : String :=
  match settings.arguments.value? key with
  | some value => value
  | none =>
      match settings.fromEnvironment? key with
      | some value => value
      | none => ((settings.file.lookup key).map Yaml.Value.toText).getD default

/--
A setting that is a Boolean; in the environment a word that is none counts as
false.
-/
def boolean (settings : Settings) (key : String) (default : Bool) : Bool :=
  match settings.arguments.boolean? key with
  | some value => value
  | none =>
      match settings.fromEnvironment? key with
      | some value => (readBoolean? value).getD false
      | none => ((settings.file.lookup key).map toBoolean).getD default

/-- Whether messages are coloured. -/
def coloured (settings : Settings) : Bool :=
  settings.text "color" "auto" == "always"

end Settings

end Asm24.CommandLine
