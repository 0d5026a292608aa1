import Asm24.Files.Access
import Asm24.Proofs.OutputPath
import Asm24.Proofs.Success

/-!
# Changes of file trees

A path that can be followed leads to a place that its names alone determine,
whatever the tree holds.  The operations on trees keep all directories, and all
files but those at some places, so a path that leads to another file leads to it
with the same content afterwards.  `Spares` states this for any two trees; it is
shown for each operation and carried through a run.
-/

namespace Asm24.Files.FileTree

open Asm24.Proofs

/-! ## Entries -/

theorem lookup_map_put (entries : List (Place × Entry)) (place other : Place)
    (entry : Entry) :
    (entries.map (fun (known, old) =>
      (known, if known = place then entry else old))).lookup other =
      (entries.lookup other).map (fun old => if other = place then
        entry else old) := by
  induction entries with
  | nil => rfl
  | cons first rest ih =>
      rcases first with ⟨known, old⟩
      rw [List.map_cons, List.lookup_cons, List.lookup_cons]
      cases same : other == known with
      | true => simp [eq_of_beq same]
      | false => exact ih

/--
An entry that is put at a place is found there, and elsewhere nothing changes.
-/
theorem lookup_put {tree : FileTree} {place : Place} (below : place ≠ [])
    (entry : Entry) (other : Place) :
    FileTree.entry? (tree.put place entry) other =
      if other = place then some entry else tree.entry? other := by
  by_cases root : other = []
  · simp [ entry?, root, Ne.symm below]
  · simp only [ entry?, List.isEmpty_iff, root, if_false, put]
    split
    case isTrue known =>
      rw [lookup_map_put]
      by_cases same : other = place
      · rw [same, Option.isSome_iff_exists] at *
        rcases known with ⟨old, found⟩
        simp [found]
      · simp [same]
    case isFalse unknown =>
      rw [Bool.not_eq_true, Option.isSome_eq_false_iff,
        Option.isNone_iff_eq_none] at unknown
      by_cases same : other = place
      · simp [same, List.lookup_append, unknown]
      · have different : (other == place) = false :=
          beq_eq_false_iff_ne.mpr same
        simp [same, List.lookup_append, List.lookup_cons, different]

/-- A place where no directory stands is not the root. -/
theorem ne_root {tree : FileTree} {place : Place}
    (free : tree.entry? place ≠ some .directory) :
    place ≠ [] := by
  rintro rfl
  exact free rfl

/-! ## Places -/

/--
The place that a path leads to, if every name before the last leads to a
directory.
-/
def place (tree : FileTree) (path : String) : Place :=
  (steps path).foldl enter (if Path.isAbsolute path.toList then
    [] else tree.workingDirectory)

/-- A path without a null character that is neither empty nor too long. -/
structure IsPath (path : String) : Prop where
  noNull : path.toList.contains (Char.ofNat 0) = false
  nonempty : path ≠ ""
  short : path.utf8ByteSize ≤ pathLimit

/-- A name is followed from a directory if it is not too long. -/
theorem follow_cons_eq_ok_iff {tree : FileTree} {start reached : Place}
    {name : String} {rest : List String} :
    tree.follow start (name :: rest) = .ok reached ↔
      tree.entry? start = some .directory ∧ name.utf8ByteSize ≤ nameLimit ∧
        tree.follow (enter start name) rest = .ok reached := by
  rw [follow]
  cases tree.entry? start with
  | none => simp
  | some entry =>
      cases entry with
      | file content => simp
      | directory =>
          by_cases long : nameLimit < name.utf8ByteSize
          · simp [long, Nat.not_le.mpr long]
          · simp [long, Nat.le_of_not_lt long]

theorem resolve_eq_ok_iff {tree : FileTree} {path : String} {reached : Place} :
    tree.resolve path = .ok reached ↔
      IsPath path ∧
        tree.follow (if Path.isAbsolute path.toList then
          [] else tree.workingDirectory)
          (steps path) = .ok reached := by
  constructor
  · intro resolved
    unfold resolve at resolved
    split at resolved
    case isTrue => cases resolved
    case isFalse noNull =>
      split at resolved
      case isTrue => cases resolved
      case isFalse nonempty =>
        split at resolved
        case isTrue => cases resolved
        case isFalse short =>
          exact ⟨⟨Bool.eq_false_iff.mpr noNull, nonempty,
            Nat.le_of_not_lt short⟩, resolved⟩
  · rintro ⟨⟨noNull, nonempty, short⟩, followed⟩
    rw [resolve, if_neg (Bool.eq_false_iff.mp noNull), if_neg nonempty,
      if_neg (Nat.not_lt.mpr short)]
    exact followed

theorem foldl_enter_of_follow {tree : FileTree} {names : List String}
    {start reached : Place} (followed : tree.follow start names = .ok reached) :
    names.foldl enter start = reached := by
  induction names generalizing start with
  | nil => exact Except.ok.inj followed
  | cons name rest ih => exact ih (follow_cons_eq_ok_iff.mp followed).2.2

/-- A path that can be resolved leads to its place. -/
theorem place_of_resolve {tree : FileTree} {path : String} {reached : Place}
    (resolved : tree.resolve path = .ok reached) : tree.place path = reached :=
  foldl_enter_of_follow (resolve_eq_ok_iff.mp resolved).2

theorem enter_of_isName {name : List Char} (isName : Path.IsName name)
    (place : Place) :
    enter place (String.ofList name) = place ++ [String.ofList name] := by
  have notHere : String.ofList name ≠ "." := fun same =>
    isName.notHere (by simpa using congrArg String.toList same)
  have notUp : String.ofList name ≠ ".." := fun same =>
    isName.notUp (by simpa using congrArg String.toList same)
  rw [enter, if_neg notHere, if_neg notUp]

/-- A path leads to a place with its last name. -/
theorem getLast?_place (tree : FileTree) {name path : List Char}
    (isName : Path.IsName name) (ends : Path.EndsWith name path) :
    (tree.place (String.ofList path)).getLast? = some (String.ofList name) := by
  have noSlash : path.getLast? ≠ some '/' := by
    rw [ends.getLast?_eq isName.nonempty]
    exact fun slash => isName.inner (List.mem_of_getLast? slash)
  obtain ⟨front, names⟩ : ∃ front, Path.names path = front ++ [name] := by
    cases ends with
    | alone => exact ⟨[], isName.names_eq⟩
    | below front => exact ⟨_, isName.names_append front⟩
  have kept : [name].filter (fun name => !name.isEmpty) = [name] := by
    simp [isName.nonempty]
  rw [place, steps, String.toList_ofList, if_neg noSlash, names,
    List.filter_append, kept, List.append_nil, List.map_append,
    List.foldl_append, List.map_singleton, List.foldl_cons, List.foldl_nil,
    enter_of_isName isName, List.getLast?_concat]

/-- A path is read if it can be resolved and a file stands at its place. -/
theorem read_eq_ok_iff {tree : FileTree} {path : String}
    {content : List UInt8} :
    tree.read path = .ok content ↔
      tree.resolve path = .ok (tree.place path) ∧
        tree.entry? (tree.place path) = some (.file content) := by
  rw [read, inspect]
  cases resolved : tree.resolve path with
  | error refusal => simp [bind, Except.bind]
  | ok reached =>
      rw [place_of_resolve resolved]
      cases found : tree.entry? reached with
      | none => simp [bind, Except.bind, found]
      | some entry =>
          cases entry <;> simp [bind, Except.bind, pure, Except.pure, found]

/-! ## What changes keep -/

/--
A later tree has all directories of an earlier one, and all of its files with
their content except at some places.
-/
structure Spares (touched : List Place) (tree later : FileTree) : Prop where
  start : later.workingDirectory = tree.workingDirectory
  directory : ∀ place, tree.entry? place = some .directory →
    later.entry? place = some .directory
  file : ∀ place content, place ∉ touched →
    tree.entry? place = some (.file content) →
    later.entry? place = some (.file content)

namespace Spares

theorem refl (tree : FileTree) : Spares [] tree tree :=
  ⟨rfl, fun _ found => found, fun _ _ _ found => found⟩

variable {touched more : List Place} {tree later final : FileTree}

theorem trans (first : Spares touched tree later)
    (second : Spares more later final) :
    Spares (touched ++ more) tree final := by
  refine ⟨second.start.trans first.start, ?_, ?_⟩
  · intro place found
    exact second.directory place (first.directory place found)
  · intro place content outside found
    rw [List.mem_append, not_or] at outside
    exact second.file place content outside.2
      (first.file place content outside.1 found)

/--
An entry that is put where no directory stands replaces at most the file there.
-/
theorem put {place : Place} (entry : Entry)
    (free : tree.entry? place ≠ some .directory) :
    Spares [place] tree (tree.put place entry) := by
  refine ⟨rfl, ?_, ?_⟩
  · intro other found
    rw [lookup_put (ne_root free), if_neg, found]
    rintro rfl
    exact free found
  · intro other content outside found
    rw [lookup_put (ne_root free), if_neg (by simpa using outside), found]

/-- An entry that is put where nothing stands replaces nothing. -/
theorem put_new {place : Place} (entry : Entry)
    (nothing : tree.entry? place = none) :
    Spares [] tree (tree.put place entry) := by
  have spares : Spares [place] tree (tree.put place entry) :=
    put entry (by simp [nothing])
  refine ⟨spares.start, spares.directory, ?_⟩
  intro other content _ found
  refine spares.file other content ?_ found
  rw [List.mem_singleton]
  rintro rfl
  simp [nothing] at found

theorem place_eq (spares : Spares touched tree later) (path : String) :
    later.place path = tree.place path := by
  rw [place, place, spares.start]

theorem follow (spares : Spares touched tree later) {names : List String}
    {start reached : Place} (followed : tree.follow start names = .ok reached) :
    later.follow start names = .ok reached := by
  induction names generalizing start with
  | nil => exact followed
  | cons name rest ih =>
      rcases follow_cons_eq_ok_iff.mp followed with ⟨found, short, followed⟩
      exact follow_cons_eq_ok_iff.mpr ⟨spares.directory _ found, short,
        ih followed⟩

theorem resolve (spares : Spares touched tree later) {path : String}
    {reached : Place} (resolved : tree.resolve path = .ok reached) :
    later.resolve path = .ok reached := by
  rw [resolve_eq_ok_iff] at resolved ⊢
  rw [spares.start]
  exact ⟨resolved.1, spares.follow resolved.2⟩

/-- A file at another place keeps its content. -/
theorem read (spares : Spares touched tree later) {path : String}
    {content : List UInt8} (outside : tree.place path ∉ touched)
    (known : tree.read path = .ok content) :
    later.read path = .ok content := by
  rw [read_eq_ok_iff] at known ⊢
  rw [spares.place_eq]
  exact ⟨spares.resolve known.1, spares.file _ _ outside known.2⟩

end Spares

/-! ## Operations -/

variable {tree final : FileTree} {path : String}

/-- Making a directory replaces nothing. -/
theorem spares_of_makeDirectory (made : tree.makeDirectory path = .ok final) :
    Spares [] tree final := by
  unfold makeDirectory at made
  split at made
  case h_1 =>
    cases made
    exact .refl tree
  case h_2 => cases made
  case h_3 refusal missing =>
    split at made
    case h_1 place resolved =>
      cases made
      have nothing : tree.entry? place = none := by
        cases found : tree.entry? place with
        | none => rfl
        | some entry =>
            simp [inspect, resolved, found, bind, Except.bind, pure,
              Except.pure] at missing
      exact .put_new .directory nothing
    case h_2 => cases made

/-- Making directories replaces nothing, also if it stops half way. -/
theorem spares_of_makeEach (paths : List String) :
    Spares [] tree (tree.makeEach paths).2 := by
  induction paths generalizing tree with
  | nil => exact .refl tree
  | cons path rest ih =>
      rw [makeEach]
      cases made : tree.makeDirectory path with
      | error error => exact .refl tree
      | ok middle => exact (spares_of_makeDirectory made).trans ih

/--
A file is replaced if its path leads to a place where no directory stands.
-/
theorem replace_eq_ok_iff {content : List UInt8} :
    tree.replace path content = .ok final ↔
      ∃ place, tree.resolve path = .ok place ∧
        tree.entry? place ≠ some .directory ∧
        tree.put place (.file content) = final := by
  rw [replace]
  constructor
  · intro replaced
    split at replaced
    case h_1 => cases replaced
    case h_2 place resolved =>
      split at replaced
      case h_1 => cases replaced
      case h_2 free => exact ⟨place, resolved, free, Except.ok.inj replaced⟩
  · rintro ⟨place, resolved, free, rfl⟩
    simp only [resolved]

/-- A file that is replaced has the new content, and no other file changes. -/
theorem spares_of_replace {content : List UInt8}
    (replaced : tree.replace path content = .ok final) :
    Spares [tree.place path] tree final ∧ final.read path = .ok content := by
  rcases replace_eq_ok_iff.mp replaced with ⟨place, resolved, free, rfl⟩
  rw [place_of_resolve resolved]
  have spares := Spares.put (.file content) free
  refine ⟨spares, read_eq_ok_iff.mpr ?_⟩
  rw [spares.place_eq, place_of_resolve resolved, lookup_put (ne_root free),
    if_pos rfl]
  exact ⟨spares.resolve resolved, rfl⟩

end Asm24.Files.FileTree

namespace Asm24.Files

open FileTree (Spares)

/--
The tree in which an output is written: its directory is made, if that succeeds.
-/
def prepared (tree : FileTree) (path : String) :
    Except FileError Unit × FileTree :=
  (makeDirectoryOf path : StateM FileTree _) tree

theorem spares_prepared (tree : FileTree) (path : String) :
    Spares [] tree (prepared tree path).2 := by
  unfold prepared makeDirectoryOf
  split
  case isTrue => exact .refl tree
  case isFalse => exact FileTree.spares_of_makeEach _

/-- One step of a tree behind another. -/
theorem bind_run {value result : Type} (first : StateM FileTree value)
    (next : value → StateM FileTree result) (tree : FileTree) :
    (first >>= next) tree = next (first tree).1 (first tree).2 :=
  rfl

/-- The steps of writing a production to a tree. -/
theorem writeFile_run {failure : Type} (path : String)
    (production : Production failure) (tree : FileTree) :
    (writeFile path production : StateM FileTree _) tree =
      match prepared tree path with
      | (.ok (), made) =>
          match made.replace path production.content with
          | .error error => (.error (.file error), made)
          | .ok final =>
              match production.failure? with
              | none => (.ok (), final)
              | some error => (.error (.producer error), final)
      | (.error error, made) => (.error (.file error), made) := by
  have making :
      (makeDirectoryOf path : StateM FileTree _) tree = prepared tree path :=
    rfl
  rw [writeFile, bind_run, making]
  rcases prepared tree path with ⟨error | ⟨⟩, made⟩
  · rfl
  · change (_ >>= _ : StateM FileTree _) made = _
    rw [bind_run]
    simp only [FileAccess.replace]
    cases made.replace path production.content with
    | error error => rfl
    | ok final => cases production.failure? <;> rfl

/--
A production is written if its producer succeeds and its file can be replaced.
-/
theorem writeFile_eq_ok_iff {failure : Type} {path : String}
    {production : Production failure} {tree final : FileTree} :
    (writeFile path production : StateM FileTree _) tree = (.ok (), final) ↔
      production.failure? = none ∧
        ∃ made, prepared tree path = (.ok (), made) ∧
          made.replace path production.content = .ok final := by
  rw [writeFile_run]
  constructor
  · intro written
    split at written
    case h_1 made madeDirectories =>
      split at written
      case h_1 => cases written
      case h_2 reached replaced =>
        split at written
        case h_1 whole =>
          cases written
          exact ⟨whole, made, madeDirectories, replaced⟩
        case h_2 => cases written
    case h_2 => cases written
  · rintro ⟨whole, made, madeDirectories, replaced⟩
    simp only [madeDirectories, replaced, whole]

/--
A file that is written has the content of the production, and no other file
changes.
-/
theorem spares_of_writeFile {failure : Type} {path : String}
    {production : Production failure} {tree final : FileTree}
    (written : (writeFile path production : StateM FileTree _) tree =
      (.ok (), final)) :
    Spares [tree.place path] tree final ∧
      final.read path = .ok production.content := by
  rcases writeFile_eq_ok_iff.mp written with
    ⟨-, made, madeDirectories, replaced⟩
  have directories := spares_prepared tree path
  rw [madeDirectories] at directories
  rcases FileTree.spares_of_replace replaced with ⟨spares, read⟩
  rw [directories.place_eq] at spares
  exact ⟨directories.trans spares, read⟩

end Asm24.Files
