import Asm24.Files.Buffer
import Asm24.Files.Tree
import Asm24.Text.Utf8

/-!
# Access to files

The file operations that commands need, as an interface: a file tree implements
it purely, and the running program implements it on the file system of its host.

On top of the interface a path is checked to lead to a regular file, a source is
read as text, and the output of a producer is written to a file whose directory
is made if need be.
-/

namespace Asm24.Files

/-- The file operations that commands need. -/
class FileAccess (m : Type → Type) where
  /-- The directory in which relative paths start. -/
  workingDirectory : m String
  /-- Whether a path leads to a regular file, or to something else. -/
  isRegular (path : String) : m (Except FileError Bool)
  /-- The content of a file. -/
  read (path : String) : m (Except FileError (List UInt8))
  /-- Make a directory and all directories above it. -/
  makeDirectories (path : String) : m (Except FileError Unit)
  /-- Replace the content of a file, which is made if it is missing. -/
  replace (path : String) (content : List UInt8) : m (Except FileError Unit)

instance : FileAccess (StateM FileTree) where
  workingDirectory :=
    fun tree => ("/" ++ "/".intercalate tree.workingDirectory, tree)
  isRegular path := fun tree =>
    match tree.inspect path with
    | .ok (.file _) => (.ok true, tree)
    | .ok .directory => (.ok false, tree)
    | .error refusal => (.error (.refused .inspecting path refusal), tree)
  read path := fun tree => (tree.read path, tree)
  makeDirectories path := fun tree => tree.makeDirectories path
  replace path content := fun tree =>
    match tree.replace path content with
    | .ok changed => (.ok (), changed)
    | .error error => (.error error, tree)

variable {m : Type → Type} [Monad m] [FileAccess m]

/--
The path of a regular file from the root, and the directory that holds it.
-/
def locateFile (path : String) : m (Except FileError (String × String)) := do
  let start ← FileAccess.workingDirectory
  let full := Path.absolute start.toList path.toList
  match ← FileAccess.isRegular (String.ofList full) with
  | .error error => return .error error
  | .ok false => return .error (.irregular (String.ofList full))
  | .ok true =>
      return .ok (String.ofList full, String.ofList (Path.directory full))

/-- The text of a file. -/
def readText (path : String) : m (Except FileError String) := do
  match ← FileAccess.read path with
  | .error error => return .error error
  | .ok content => return .ok (String.ofList (Text.decode content))

/-- Why a production did not reach its file whole. -/
inductive WriteError (failure : Type) where
  | file (error : FileError)
  | producer (error : failure)

/-- Make the directory of an output, unless it is the working one. -/
def makeDirectoryOf (path : String) : m (Except FileError Unit) :=
  let directory := Path.directory path.toList
  if directory = ['.'] then
    pure (.ok ())
  else
    FileAccess.makeDirectories (String.ofList directory)

/-- Write a production to a file, in a directory that is made if need be. -/
def writeFile {failure : Type} (path : String)
    (production : Production failure) :
    m (Except (WriteError failure) Unit) := do
  match ← makeDirectoryOf path with
  | .error error => return .error (.file error)
  | .ok () =>
      match ← FileAccess.replace path production.content with
      | .error error => return .error (.file error)
      | .ok () =>
          match production.failure? with
          | none => return .ok ()
          | some error => return .error (.producer error)

end Asm24.Files
