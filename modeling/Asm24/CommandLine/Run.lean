import Asm24.CommandLine.Inspection
import Asm24.CommandLine.Outcome
import Asm24.CommandLine.Settings
import Asm24.Files.Access

/-!
# Running commands

The commands assemble sources into images and listings, disassemble an image,
and print the version.  They run against any implementation of the file
interface and end with an exit code and two texts.

Sources are assembled one after the other, each with a report.  The first
failure stops the run; its report is kept as far as it got, and later sources
are not touched.
-/

namespace Asm24.CommandLine

open Asm24.Machine
open Asm24.Assembly
open Asm24.Files

/-- What commands need from their host: files and a clock in microseconds. -/
class Host (m : Type → Type) extends FileAccess m where
  clock : m Nat

/-- The pure host is a file tree in which no time passes. -/
instance : Host (StateM FileTree) where
  clock := pure 0

/-- A computation that appends to a report and may fail, keeping the report. -/
abbrev ReportT (m : Type → Type) := ExceptT CommandError (StateT String m)

/-- What to do with each source. -/
structure AssembleOptions where
  outputDirectory : String := ""
  image : Bool := true
  listing : Bool := false
  dump : Bool := false
  inspect : Bool := false
  coloured : Bool := false
  deriving DecidableEq, Repr

/-- The options of the settings. -/
def AssembleOptions.ofSettings (settings : Settings) : AssembleOptions where
  outputDirectory := settings.text "out-dir" ""
  image := settings.boolean "bin" true
  listing := settings.boolean "dsm" false
  dump := settings.boolean "dump" false
  inspect := settings.boolean "inspect" false
  coloured := settings.coloured

/-- What to do with an image. -/
structure DisassembleOptions where
  output : String := ""
  all : Bool := false
  dump : Bool := false
  deriving DecidableEq, Repr

/-- The options of the flags. -/
def DisassembleOptions.ofArguments (arguments : Arguments) :
    DisassembleOptions where
  output := (arguments.value? "output").getD ""
  all := (arguments.boolean? "all").getD false
  dump := (arguments.boolean? "dump").getD false

/-- The path of an output of a source. -/
def outputPath (full outputDirectory extension : String) : String :=
  String.ofList (Path.output full.toList outputDirectory.toList
    extension.toList)

section

variable {m : Type → Type} [Monad m]

/-- Append to the report. -/
def report (text : String) : ReportT m Unit :=
  modify (· ++ text)

/-- Take the result of a step, or fail with its error. -/
def require {failure result : Type} (wrap : failure → CommandError) :
    Except failure result → ReportT m result
  | .ok value => pure value
  | .error error => throw (wrap error)

/-- The command error of a write error. -/
def ofWriteError {failure : Type} (wrap : failure → CommandError) :
    WriteError failure → CommandError
  | .file error => .file error
  | .producer error => wrap error

variable [Host m]

/-- Run a step of the host. -/
def host {result : Type} (step : m result) : ReportT m result :=
  ExceptT.lift (StateT.lift step)

/--
Assemble one source and write its outputs.  The printer shows programs for
inspection.
-/
def assembleSource (printer : Program → String) (options : AssembleOptions)
    (source : String) : ReportT m Unit := do
  let started ← host Host.clock
  let (full, directory) ← require .noSource (← host (locateFile source))
  report ("Source File: " ++ full ++ "\n")
  let outputDirectory :=
    if options.outputDirectory = "" then directory else options.outputDirectory
  let text ← require .file (← host (readText full))
  let program ← require .assembly (assemble source text)
  if options.dump then
    report "Dumping Assembled Instructions:\n"
    report (← require .listing (Machine.dump program.words))
  if options.inspect then
    report (printer program)
  if options.image then
    let path := outputPath full outputDirectory ".bin"
    require (ofWriteError .imageWrite)
      (← host (writeFile path (Image.production program.words)))
    report ("Output Binary: " ++ path ++ "\n")
  if options.listing then
    let path := outputPath full outputDirectory ".dsm"
    require (ofWriteError .listing)
      (← host (writeFile path (Machine.listingProduction program.words)))
    report ("Output Disassembly: " ++ path ++ "\n")
  let finished ← host Host.clock
  report (paint options.coloured .green "ASSEMBLY PROCESS COMPLETE!" ++ "\n")
  report ("[Finished in " ++ milliseconds (finished - started) ++ "ms]\n")

/-- Assemble sources in order, up to the first failure. -/
def assembleSources (printer : Program → String) (options : AssembleOptions) :
    List String → ReportT m Unit
  | [] => pure ()
  | source :: rest => do
      assembleSource printer options source
      assembleSources printer options rest

/-- Disassemble an image, to the report or to a file. -/
def disassembleImage (options : DisassembleOptions) (path : String) :
    ReportT m Unit := do
  let bytes ←
    match ← host (FileAccess.read path) with
    | .ok bytes => pure bytes
    | .error (.refused .opening path refusal) =>
        throw (.file (.refused .opening path refusal))
    | .error error => throw (.imageRead path error)
  let words ← require (.imageContent path) (Image.read bytes)
  let words := if options.all then words else Image.trimTrailing words
  if options.output = "" then
    report (← require .listing
      (if options.dump then Machine.dump words else Machine.listing words))
  else
    require (ofWriteError .listing)
      (← host (writeFile options.output
        (if options.dump then Machine.dumpProduction words
          else Machine.listingProduction words)))

/-- The extensions that a settings file may have. -/
def settingsExtensions : List String :=
  ["json", "toml", "yaml", "yml", "properties", "props", "prop", "hcl",
    "tfvars", "dotenv", "env", "ini"]

/-- The first of some paths that leads to a regular file. -/
def firstRegular? : List String → m (Option String)
  | [] => return none
  | path :: rest => do
      match ← FileAccess.isRegular path with
      | .ok true => return some path
      | _ => firstRegular? rest

/-- The settings file that is used when none is named, if there is one. -/
def defaultSettingsPath? : m (Option String) := do
  let start ← FileAccess.workingDirectory
  let path (name : String) := String.ofList (Path.join start.toList name.toList)
  firstRegular?
    ((settingsExtensions.map (fun extension => path ("basm." ++ extension))) ++
      [path "basm"])

/-- The settings of the file that is named, or of the default file. -/
def loadSettings (named : String) :
    m (Except CommandError (List Yaml.Entry)) := do
  let extension := String.ofList ((Path.extension named.toList).drop 1)
  if named ≠ "" ∧ !settingsExtensions.contains extension then
    return .error (.unknownFormat extension)
  let path? ← if named = "" then defaultSettingsPath? else pure (some named)
  match path? with
  | none => return .ok []
  | some path =>
      match ← FileAccess.read path with
      | .error error => return .error (.settings error)
      | .ok content => return (readSettings content).mapError .settingsContent

/-- Run a command whose settings are known. -/
def runCommand (command : Command) (settings : Settings) : ReportT m Unit :=
  match command with
  | .program => pure ()
  | .assemble =>
      assembleSources inspect (AssembleOptions.ofSettings settings)
        settings.arguments.rest
  | .disassemble =>
      match settings.arguments.rest with
      | path :: _ =>
          disassembleImage (DisassembleOptions.ofArguments settings.arguments)
            path
      | [] => pure ()
  | .version => report "basm 1.0.0\n"

/--
Run a command line.  Before the settings file is read the flags do not colour
messages; the environment does so only once the command line has been
understood.
-/
def run (words : List String) (environment : String → Option String) :
    m Outcome := do
  match readCommandLine words with
  | .error error => return ⟨1, "", failureText false (.usage error)⟩
  | .ok (.program, _) => return ⟨0, "", ""⟩
  | .ok (command, arguments) =>
      match ← loadSettings ((arguments.value? "config").getD "") with
      | .error error =>
          let settings : Settings := { environment }
          return ⟨1, "", failureText settings.coloured error⟩
      | .ok file =>
          let settings : Settings := { arguments, environment, file }
          let (result, output) ← ((runCommand command settings).run).run ""
          match result with
          | .ok () => return ⟨0, output, ""⟩
          | .error error =>
              return ⟨1, output, failureText settings.coloured error⟩

end

end Asm24.CommandLine
