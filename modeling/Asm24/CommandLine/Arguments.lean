import Asm24.Text.Numeral
import Asm24.Text.Quoted

/-!
# Command lines

A command line names a command, gives flags before or after it, and arguments.
Two flags belong to every command and the others to one each.  A flag takes its
value after an equals sign or from the next word; a Boolean flag takes one only
after an equals sign.  A flag with a letter may be written by it, with the value
attached or in the next word.  Two hyphens end the flags.

The command is found first, by skipping over the flags and the words that they
would take if the flag is not known to be Boolean.  The flags are then read in
order, and the first fault counts.
-/

namespace Asm24.CommandLine

/--
The commands; the first is the program itself, before any command is named.
-/
inductive Command where
  | program
  | assemble
  | disassemble
  | version
  deriving DecidableEq, Repr

/-- What a flag takes as its value. -/
inductive ValueType where
  | text
  | boolean
  | integer
  deriving DecidableEq, Repr

/-- A flag of a command. -/
structure FlagForm where
  name : String
  letter? : Option Char := none
  valueType : ValueType := .text
  deriving DecidableEq, Repr

/-- A fault in the use of a command line. -/
inductive UsageError where
  | unknownCommand (name : String)
  | badSyntax (word : String)
  | unknownFlag (name : String)
  | unknownLetter (letter : Char) (letters : String)
  | missingValue (word : String)
  | missingLetterValue (letter : Char) (letters : String)
  | invalidInteger (value : String) (form : FlagForm)
      (fault : Text.NumeralFault)
  | invalidBoolean (value : String) (form : FlagForm)
  | tooFewArguments (received : Nat)
  | wrongArgumentCount (received : Nat)
  deriving DecidableEq, Repr

namespace FlagForm

/-- The spelling of a flag in messages. -/
def spelling (form : FlagForm) : String :=
  match form.letter? with
  | some letter => "-" ++ String.ofList [letter] ++ ", --" ++ form.name
  | none => "--" ++ form.name

end FlagForm

/-- The text of a fault in a number. -/
def numeralFaultText : Text.NumeralFault → String
  | .malformed => "invalid syntax"
  | .overflow => "value out of range"

namespace UsageError

/-- The text of a flag with a value that it does not take. -/
def invalidValue (value : String) (form : FlagForm) (reader fault : String) :
    String :=
  "invalid argument " ++ Text.quote value ++ " for " ++
    Text.quote form.spelling ++
    " flag: strconv." ++ reader ++ ": parsing " ++ Text.quote value ++
      ": " ++ fault

/-- The text of a usage error. -/
def message : UsageError → String
  | .unknownCommand name =>
      "unknown command " ++ Text.quote name ++ " for \"basm\""
  | .badSyntax word => "bad flag syntax: " ++ word
  | .unknownFlag name => "unknown flag: --" ++ name
  | .unknownLetter letter letters =>
      "unknown shorthand flag: " ++ Text.quoteChar letter ++ " in -" ++ letters
  | .missingValue word => "flag needs an argument: " ++ word
  | .missingLetterValue letter letters =>
      "flag needs an argument: " ++ Text.quoteChar letter ++ " in -" ++ letters
  | .invalidInteger value form fault =>
      invalidValue value form "ParseInt" (numeralFaultText fault)
  | .invalidBoolean value form =>
      invalidValue value form "ParseBool" "invalid syntax"
  | .tooFewArguments received =>
      "requires at least 1 arg(s), only received " ++ toString received
  | .wrongArgumentCount received =>
      "accepts 1 arg(s), received " ++ toString received

end UsageError

/-- The Boolean that a word spells. -/
def readBoolean? (word : String) : Option Bool :=
  if ["1", "t", "T", "TRUE", "true", "True"].contains word then some true
  else if ["0", "f", "F", "FALSE", "false", "False"].contains word then
    some false
  else none

namespace Command

/-- The flags that every command has. -/
def sharedForms : List FlagForm :=
  [{ name := "config" }, { name := "color" }]

/-- The flags of a command. -/
def forms : Command → List FlagForm
  | .program | .version => sharedForms
  | .assemble =>
      sharedForms ++
        [{ name := "out-dir" }, { name := "bin", valueType := .boolean },
          { name := "dsm", valueType := .boolean },
          { name := "dump", valueType := .boolean },
          { name := "inspect", valueType := .boolean },
          { name := "jobs", letter? := some 'j', valueType := .integer }]
  | .disassemble =>
      sharedForms ++
        [{ name := "output", letter? := some 'o' },
          { name := "all", valueType := .boolean },
          { name := "dump", valueType := .boolean }]

/-- The command that a word names. -/
def ofName? (name : String) : Option Command :=
  if name = "assemble" ∨ name = "asm" then some .assemble
  else if name = "disassemble" ∨ name = "dis" then some .disassemble
  else if name = "version" then some .version
  else none

end Command

/-- Whether a word has the form of a flag. -/
def isFlag (word : String) : Bool :=
  word.toList.head? == some '-'

/--
Whether a word is a flag that may take the next word, judged by the flags of the
program: a long flag or a single letter, without an equals sign, that is not
known to be Boolean.
-/
def takesNext (forms : List FlagForm) (word : String) : Bool :=
  match word.toList with
  | '-' :: '-' :: name =>
      !name.contains '=' &&
        !forms.any (fun form => form.name.toList == name &&
          form.valueType == .boolean)
  | ['-', letter] =>
      letter != '=' && letter.toNat < 0x80 &&
        !forms.any (fun form => form.letter? == some letter &&
          form.valueType == .boolean)
  | _ => false

/-- The words of a command line that are neither flags nor their values. -/
def positionals (forms : List FlagForm) : List String → List String
  | [] => []
  | word :: rest =>
      if word = "--" then
        []
      else if takesNext forms word then
        match rest with
        | _ :: next :: more => positionals forms (next :: more)
        | _ => []
      else if word ≠ "" ∧ !isFlag word then
        word :: positionals forms rest
      else
        positionals forms rest

/-- A command line without the word that names the command. -/
def withoutName (forms : List FlagForm) (name : String) :
    List String → List String
  | [] => []
  | word :: rest =>
      if word = "--" then
        word :: rest
      else if takesNext forms word then
        match rest with
        | value :: more => word :: value :: withoutName forms name more
        | [] => [word]
      else if word = name ∧ !isFlag word then
        rest
      else
        word :: withoutName forms name rest

/-- The command of a command line, and the words without its name. -/
def findCommand (words : List String) :
    Except UsageError (Command × List String) :=
  let forms := Command.program.forms
  match positionals forms words with
  | [] => .ok (.program, words)
  | name :: _ =>
      match Command.ofName? name with
      | some command => .ok (command, withoutName forms name words)
      | none => .error (.unknownCommand name)

/-- The flags that are given, in order, and the arguments. -/
structure Arguments where
  flags : List (String × String) := []
  rest : List String := []
  deriving DecidableEq, Repr

namespace Arguments

/-- The value that is given last for a flag. -/
def value? (arguments : Arguments) (name : String) : Option String :=
  arguments.flags.reverse.lookup name

/-- The Boolean that is given last for a flag. -/
def boolean? (arguments : Arguments) (name : String) : Option Bool :=
  (arguments.value? name).bind readBoolean?

/-- The arguments with one more flag before them. -/
def addFlag (arguments : Arguments) (name value : String) : Arguments :=
  { arguments with flags := (name, value) :: arguments.flags }

end Arguments

/-- A value that a flag takes. -/
def checkValue (form : FlagForm) (value : String) : Except UsageError Unit :=
  match form.valueType with
  | .text => .ok ()
  | .boolean =>
      match readBoolean? value with
      | some _ => .ok ()
      | none => .error (.invalidBoolean value form)
  | .integer =>
      match Text.readInteger value.toList with
      | .ok _ => .ok ()
      | .error fault => .error (.invalidInteger value form fault)

/-- What a word of a command line is. -/
inductive WordReading where
  /-- An argument. -/
  | argument
  /-- Two hyphens, after which every word is an argument. -/
  | finish
  /-- A flag with its value. -/
  | complete (form : FlagForm) (value : String)
  /-- A flag whose value is the next word, and the error if there is none. -/
  | needsNext (form : FlagForm) (missing : UsageError)
  deriving Repr

/-- The reading of a long flag, from the characters after the two hyphens. -/
def readLong (forms : List FlagForm) (word : String) (body : List Char) :
    Except UsageError WordReading :=
  if body.head? = some '-' ∨ body.head? = some '=' then
    .error (.badSyntax word)
  else
    let name := String.ofList (body.takeWhile (· != '='))
    match forms.find? (fun form => form.name == name) with
    | none => .error (.unknownFlag name)
    | some form =>
        match body.dropWhile (· != '=') with
        | _ :: value => .ok (.complete form (String.ofList value))
        | [] =>
            if form.valueType = .boolean then
              .ok (.complete form "true")
            else
              .ok (.needsNext form (.missingValue word))

/--
The reading of a flag that is written by its letter, from the characters after
the hyphen.
-/
def readLetter (forms : List FlagForm) (letter : Char) (attached : List Char) :
    Except UsageError WordReading :=
  let letters := String.ofList (letter :: attached)
  match forms.find? (fun form => form.letter? == some letter) with
  | none => .error (.unknownLetter (Text.leadByte letter) letters)
  | some form =>
      match attached with
      | [] => .ok (.needsNext form (.missingLetterValue letter letters))
      | '=' :: next :: more =>
          .ok (.complete form (String.ofList (next :: more)))
      | value => .ok (.complete form (String.ofList value))

/-- The reading of a word. -/
def readWord (forms : List FlagForm) (word : String) :
    Except UsageError WordReading :=
  match word.toList with
  | ['-', '-'] => .ok .finish
  | '-' :: '-' :: body => readLong forms word body
  | '-' :: letter :: attached => readLetter forms letter attached
  | _ => .ok .argument

/-- Read the flags and arguments of a command. -/
def readArguments (forms : List FlagForm) :
    List String → Except UsageError Arguments
  | [] => .ok {}
  | word :: rest => do
      match ← readWord forms word with
      | .argument =>
          let arguments ← readArguments forms rest
          return { arguments with rest := word :: arguments.rest }
      | .finish => return { rest }
      | .complete form value =>
          checkValue form value
          let arguments ← readArguments forms rest
          return arguments.addFlag form.name value
      | .needsNext form missing =>
          match rest with
          | [] => .error missing
          | value :: more =>
              checkValue form value
              let arguments ← readArguments forms more
              return arguments.addFlag form.name value

/-- Hold a command to the number of arguments that it takes. -/
def checkCount (command : Command) (arguments : Arguments) :
    Except UsageError Unit :=
  let received := arguments.rest.length
  match command with
  | .assemble => if received < 1 then .error (.tooFewArguments received)
      else .ok ()
  | .disassemble => if received ≠ 1 then .error (.wrongArgumentCount received)
      else .ok ()
  | .program | .version => .ok ()

/-- The command of a command line with its flags and arguments. -/
def readCommandLine (words : List String) :
    Except UsageError (Command × Arguments) := do
  let (command, words) ← findCommand words
  let arguments ← readArguments command.forms words
  checkCount command arguments
  return (command, arguments)

end Asm24.CommandLine
