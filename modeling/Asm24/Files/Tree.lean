import Asm24.Files.Path

/-!
# File trees

A file tree maps the places below the root to files and directories.  A place is
the list of names that leads to it.  There are no links of any kind: a place
stands for one file, and two places for two, so paths lead to one file exactly
if they lead to one place.

A path is followed name by name: every name but the last must lead to a
directory, `..` goes back to the directory above, and a slash at the end asks
for a directory.  Names and paths are limited in length, and a path holds no
null character.

Errors name the operation and the path as it was given.
-/

namespace Asm24.Files

/-- What stands at a place. -/
inductive Entry where
  | file (content : List UInt8)
  | directory
  deriving DecidableEq, Repr

/-- Why the file system refuses a path. -/
inductive Refusal where
  | missing
  | notDirectory
  | isDirectory
  | nameTooLong
  | invalidPath
  /-- A refusal for a reason of the host's own, in its words. -/
  | other (reason : String)
  deriving DecidableEq, Repr

/-- The text of a refusal. -/
def Refusal.message : Refusal → String
  | .missing => "no such file or directory"
  | .notDirectory => "not a directory"
  | .isDirectory => "is a directory"
  | .nameTooLong => "file name too long"
  | .invalidPath => "invalid argument"
  | .other reason => reason

/-- The operations that the file system may refuse. -/
inductive Operation where
  | opening
  | reading
  | inspecting
  | creating
  deriving DecidableEq, Repr

/-- The name of an operation in messages. -/
def Operation.name : Operation → String
  | .opening => "open"
  | .reading => "read"
  | .inspecting => "stat"
  | .creating => "mkdir"

/--
An error of the file system, or a path that does not lead to a regular file.
-/
inductive FileError where
  | refused (operation : Operation) (path : String) (refusal : Refusal)
  | irregular (path : String)
  deriving DecidableEq, Repr

/-- The text of a file error. -/
def FileError.message : FileError → String
  | .refused operation path refusal =>
      operation.name ++ " " ++ path ++ ": " ++ refusal.message
  | .irregular path => path ++ ": not a regular file"

/-- A place below the root. -/
abbrev Place := List String

/--
The files and directories below the root, and the directory where relative paths
start.  Nothing is linked, so a file stands at one place only.
-/
structure FileTree where
  workingDirectory : Place
  entries : List (Place × Entry)
  deriving DecidableEq, Repr

namespace FileTree

/-- What stands at a place; the root is always a directory. -/
def entry? (tree : FileTree) (place : Place) : Option Entry :=
  if place.isEmpty then some .directory else tree.entries.lookup place

/-- Put an entry at a place, over the one that stands there. -/
def put (tree : FileTree) (place : Place) (entry : Entry) : FileTree :=
  { tree with
    entries :=
      if (tree.entries.lookup place).isSome then
        tree.entries.map (fun (other, old) =>
          (other, if other = place then entry else old))
      else
        tree.entries ++ [(place, entry)] }

/-- The place that one more name leads to. -/
def enter (place : Place) (name : String) : Place :=
  if name = "." then place
  else if name = ".." then place.dropLast
  else place ++ [name]

/-- The number of bytes that a name may have. -/
def nameLimit : Nat := 255

/-- The number of bytes that a path may have. -/
def pathLimit : Nat := 4095

/-- Follow names from a place, through directories only. -/
def follow (tree : FileTree) : Place → List String → Except Refusal Place
  | place, [] => .ok place
  | place, name :: rest =>
      match tree.entry? place with
      | some .directory =>
          if nameLimit < name.utf8ByteSize then
            .error .nameTooLong
          else
            follow tree (enter place name) rest
      | some (.file _) => .error .notDirectory
      | none => .error .missing

/-- The names that a path asks to follow. -/
def steps (path : String) : List String :=
  ((Path.names path.toList).filter (fun name => !name.isEmpty)).map
    String.ofList ++
    (if path.toList.getLast? = some '/' then ["."] else [])

/-- The place that a path leads to; nothing need stand there. -/
def resolve (tree : FileTree) (path : String) : Except Refusal Place :=
  if path.toList.contains (Char.ofNat 0) then
    .error .invalidPath
  else if path = "" then
    .error .missing
  else if pathLimit < path.utf8ByteSize then
    .error .nameTooLong
  else
    tree.follow (if Path.isAbsolute path.toList then
      [] else tree.workingDirectory) (steps path)

/-- What a path leads to. -/
def inspect (tree : FileTree) (path : String) : Except Refusal Entry := do
  let place ← tree.resolve path
  match tree.entry? place with
  | some entry => return entry
  | none => .error .missing

/-- The content of a file. -/
def read (tree : FileTree) (path : String) : Except FileError (List UInt8) :=
  match tree.inspect path with
  | .ok (.file content) => .ok content
  | .ok .directory => .error (.refused .reading path .isDirectory)
  | .error refusal => .error (.refused .opening path refusal)

/-- The tree with a directory at a path, unless there is one. -/
def makeDirectory (tree : FileTree) (path : String) :
    Except FileError FileTree :=
  match tree.inspect path with
  | .ok .directory => .ok tree
  | .ok (.file _) => .error (.refused .creating path .notDirectory)
  | .error _ =>
      match tree.resolve path with
      | .ok place => .ok (tree.put place .directory)
      | .error refusal => .error (.refused .creating path refusal)

/--
Make directories in order, up to the first that fails; those before it stay.
-/
def makeEach (tree : FileTree) : List String → Except FileError Unit × FileTree
  | [] => (.ok (), tree)
  | path :: rest =>
      match tree.makeDirectory path with
      | .ok made => makeEach made rest
      | .error error => (.error error, tree)

/--
Make a directory at a path and at every leading part of it, the topmost first.
-/
def makeDirectories (tree : FileTree) (path : String) :
    Except FileError Unit × FileTree :=
  tree.makeEach ((Path.ancestors path.toList).map String.ofList)

/--
The tree with a file of some content at a path, over the file that stands there.
-/
def replace (tree : FileTree) (path : String) (content : List UInt8) :
    Except FileError FileTree :=
  match tree.resolve path with
  | .error refusal => .error (.refused .opening path refusal)
  | .ok place =>
      match tree.entry? place with
      | some .directory => .error (.refused .opening path .isDirectory)
      | _ => .ok (tree.put place (.file content))

end FileTree

end Asm24.Files
