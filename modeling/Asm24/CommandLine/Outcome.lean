import Asm24.Assembly.Program
import Asm24.CommandLine.Arguments
import Asm24.Files.Tree
import Asm24.Image
import Asm24.Listing
import Asm24.Yaml.Fault

/-!
# Outcomes of commands

A command ends with an exit code and the texts on its two output channels.  A
failure is announced by two lines, in colour if the settings ask for it.
-/

namespace Asm24.CommandLine

open Asm24.Machine
open Asm24.Assembly
open Asm24.Files

/-- Why a command fails. -/
inductive CommandError where
  | usage (error : UsageError)
  | unknownFormat (extension : String)
  | settings (error : FileError)
  | settingsContent (fault : Yaml.Fault)
  | noSource (error : FileError)
  | file (error : FileError)
  | assembly (error : AssemblyError)
  | listing (error : ListingError)
  | imageWrite (error : Image.ImageError)
  | imageRead (path : String) (error : FileError)
  | imageContent (path : String) (error : Image.ImageError)

/-- The text of a command error. -/
def CommandError.message : CommandError → String
  | .usage error => error.message
  | .unknownFormat extension =>
      "reading config: Unsupported Config Type " ++ Text.quote extension
  | .settings error => "reading config: " ++ error.message
  | .settingsContent fault =>
      "reading config: While parsing config: " ++ fault.message
  | .noSource error => "no such file: " ++ error.message
  | .file error => error.message
  | .assembly error => error.message
  | .listing error => error.message
  | .imageWrite error => error.message
  | .imageRead path error => path ++ ": " ++ error.message
  | .imageContent path error => path ++ ": " ++ error.message

/-- How a command ends. -/
structure Outcome where
  exit : Nat
  output : String
  errors : String
  deriving DecidableEq, Repr

/-- A colour of messages. -/
inductive Colour where
  | yellow
  | red
  | green

/-- The control sequence of a colour. -/
def Colour.sequence : Colour → String
  | .yellow => "\x1b[1;33m"
  | .red => "\x1b[1;31m"
  | .green => "\x1b[1;32m"

/-- A text in a colour, if messages are coloured. -/
def paint (coloured : Bool) (colour : Colour) (text : String) : String :=
  if coloured then colour.sequence ++ text ++ "\x1b[0m" else text

/-- The messages of a failed command. -/
def failureText (coloured : Bool) (error : CommandError) : String :=
  paint coloured .yellow "ASSEMBLY PROCESS FAILED!" ++ "\n" ++
    paint coloured .red error.message ++ "\n"

/-- Milliseconds with two places, from microseconds. -/
def milliseconds (microseconds : Nat) : String :=
  let hundredths := (microseconds + 5) / 10
  toString (hundredths / 100) ++ "." ++
    String.ofList ((toString (hundredths % 100)).toList.leftpad 2 '0')

end Asm24.CommandLine
