import Asm24.CommandLine.Run

/-!
# The program

The command line on the file system and the clock of the host.
-/

namespace Asm24.Main

open Asm24.Files
open Asm24.CommandLine

/-- The refusal that an error of the host reports. -/
def refusal : IO.Error → Refusal
  | .noFileOrDirectory _ _ _ => .missing
  | .inappropriateType _ code reason =>
      if code = 20 then .notDirectory
      else if code = 21 then .isDirectory
      else .other reason
  | .invalidArgument _ _ _ => .invalidPath
  | error => .other (toString error)

/-- Run an operation of the host, with its errors as refusals of a path. -/
def attempt {result : Type} (operation : Operation) (path : String)
    (step : IO result) : IO (Except FileError result) := do
  try
    return .ok (← step)
  catch error =>
    return .error (.refused operation path (refusal error))

/-- Whether a path leads to something that can be read from. -/
def isReadable (path : String) : IO (Except FileError Bool) := do
  match ← attempt .inspecting path (IO.FS.Handle.mk path .read) with
  | .error error => return .error error
  | .ok handle =>
      try
        let _ ← handle.read 1
        return .ok true
      catch _ =>
        return .ok false

/-- The content of a file of the host. -/
def readBytes (path : String) : IO (Except FileError (List UInt8)) := do
  match ← attempt .opening path (IO.FS.Handle.mk path .read) with
  | .error error => return .error error
  | .ok handle =>
      attempt .reading path (do return (← handle.readBinToEnd).toList)

/-- Make each directory that leads to a path, the topmost first. -/
def makeEach : List String → IO (Except FileError Unit)
  | [] => return .ok ()
  | path :: rest => do
      match ← isReadable path with
      | .ok true => return .error (.refused .creating path .notDirectory)
      | .ok false => makeEach rest
      | .error _ =>
          match ← attempt .creating path (IO.FS.createDir path) with
          | .ok () => makeEach rest
          | .error error => return .error error

instance : FileAccess IO where
  workingDirectory := do return (← IO.currentDir).toString
  isRegular := isReadable
  read := readBytes
  makeDirectories path :=
    makeEach ((Path.ancestors path.toList).map String.ofList)
  replace path content :=
    attempt .opening path (IO.FS.writeBinFile path ⟨content.toArray⟩)

instance : Host IO where
  clock := do return (← IO.monoNanosNow) / 1000

/-- The settings that the environment may hold. -/
def environmentKeys : List String :=
  ["color", "out-dir", "bin", "dsm", "dump", "inspect"]

/-- The environment variables of the settings. -/
def readEnvironment : IO (List (String × String)) :=
  environmentKeys.filterMapM (fun key => do
    let name := Settings.variableName key
    return (← IO.getEnv name).map (fun value => (name, value)))

end Asm24.Main

/-- Run the command line of the process. -/
def main (words : List String) : IO UInt32 := do
  let environment ← Asm24.Main.readEnvironment
  let outcome ← Asm24.CommandLine.run words
      (fun name => environment.lookup name)
  IO.print outcome.output
  IO.eprint outcome.errors
  return UInt32.ofNat outcome.exit
