import Asm24.Text.Split

/-!
# Paths

Paths are taken apart as text: names separated by slashes, absolute if they
start with a slash.  The clean form of a path has no empty name, no `.` and no
`..` after another name, and is `.` if nothing is left of a relative path.

The path of an output swaps the extension of its input, and moves to a directory
if one is given.
-/

namespace Asm24.Files.Path

/-- Whether a path starts at the root. -/
def isAbsolute : List Char → Bool
  | '/' :: _ => true
  | _ => false

/-- The names of a path; repeated slashes give empty names. -/
def names (path : List Char) : List (List Char) :=
  Text.split (· == '/') path

/--
Enter one more name, where the names entered so far are given from the last to
the first.
-/
def enter (absolute : Bool) (entered : List (List Char)) (name : List Char) :
    List (List Char) :=
  if name = [] ∨ name = ['.'] then
    entered
  else if name = ['.', '.'] then
    match entered with
    | [] => if absolute then [] else [name]
    | last :: rest => if last = ['.', '.'] then name :: entered else rest
  else
    name :: entered

/-- The names of the clean form of a path. -/
def cleanNames (path : List Char) : List (List Char) :=
  ((names path).foldl (enter (isAbsolute path)) []).reverse

/-- The shortest path that is the same by its text alone. -/
def clean (path : List Char) : List Char :=
  let joined := ['/'].intercalate (cleanNames path)
  if isAbsolute path then '/' :: joined
  else if joined.isEmpty then ['.']
  else joined

/-- Two paths in a row, cleaned; an empty one is left out. -/
def join (first second : List Char) : List Char :=
  if first.isEmpty then
    if second.isEmpty then [] else clean second
  else
    clean (first ++ '/' :: second)

/-- The part of the last name from its last dot on. -/
def extension (path : List Char) : List Char :=
  let tail := path.reverse.takeWhile (fun char => char != '/' && char != '.')
  match path.reverse.drop tail.length with
  | '.' :: _ => '.' :: tail.reverse
  | _ => []

/-- The path without its extension. -/
def stem (path : List Char) : List Char :=
  path.take (path.length - (extension path).length)

/--
The last name of a path, `.` if the path is empty and a slash if it has only
slashes.
-/
def base (path : List Char) : List Char :=
  if path.isEmpty then
    ['.']
  else
    match path.reverse.dropWhile (· == '/') with
    | [] => ['/']
    | rest => (rest.takeWhile (· != '/')).reverse

/-- The clean form of a path up to its last slash. -/
def directory (path : List Char) : List Char :=
  clean (path.reverse.dropWhile (· != '/')).reverse

/-- A path from the root, taking a relative one from the working directory. -/
def absolute (workingDirectory path : List Char) : List Char :=
  if isAbsolute path then clean path else join workingDirectory path

/--
The path of an output with a new extension, next to the input or in a directory.
-/
def output (input outputDirectory newExtension : List Char) : List Char :=
  let swapped := stem input ++ newExtension
  if outputDirectory.isEmpty then
    swapped
  else
    join outputDirectory (base swapped)

/-- Every leading part of a clean path, the shortest first. -/
def ancestors (path : List Char) : List (List Char) :=
  let start := if isAbsolute path then ['/'] else []
  let whole := cleanNames path
  (List.range whole.length).map (fun count =>
    start ++ ['/'].intercalate (whole.take (count + 1)))

end Asm24.Files.Path
