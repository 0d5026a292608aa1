import Asm24.CommandLine.Run
import Asm24.Proofs.Image
import Asm24.Proofs.Tree

/-!
# Sources of one run

Sources are assembled one after the other in one tree.  A source is read from
its file, and its image and its listing are written to paths that are made from
its name, so a run changes no files but those at these paths.  Nothing else
keeps the sources apart: two sources can have the same output, and an output can
be a source.

A source that is no output of an earlier one, and whose image is not replaced by
that of a later one, has its own image in the end.  A source that is no output
at all keeps its content.  Images and listings never replace each other, since
their names end differently.
-/

namespace Asm24.CommandLine

open Asm24.Assembly
open Asm24.Files
open Asm24.Files.FileTree (Spares)
open Asm24.Machine

/-! ## Commands that succeed -/

section Finishing

variable {value result : Type} {output : String} {tree final : FileTree}
  {ended : result}

/--
A command that succeeds in a tree, behind what is reported already, and the tree
it leaves.
-/
def Finishes (command : ReportT (StateM FileTree) value) (output : String)
    (tree : FileTree) (ended : value) (final : FileTree) : Prop :=
  ∃ report, (command.run.run output) tree = ((.ok ended, report), final)

theorem finishes_report_bind {text : String}
    {next : Unit → ReportT (StateM FileTree) result} :
    Finishes (report text >>= next) output tree ended final ↔
      Finishes (next ()) (output ++ text) tree ended final :=
  Iff.rfl

theorem finishes_host_bind {step : StateM FileTree value}
    {next : value → ReportT (StateM FileTree) result} :
    Finishes (host step >>= next) output tree ended final ↔
      Finishes (next (step tree).1) output (step tree).2 ended final :=
  Iff.rfl

theorem finishes_require_bind {failure : Type} {wrap : failure → CommandError}
    {outcome : Except failure value}
    {next : value → ReportT (StateM FileTree) result} :
    Finishes (require wrap outcome >>= next) output tree ended final ↔
      ∃ given, outcome = .ok given ∧
        Finishes (next given) output tree ended final := by
  cases outcome with
  | error error =>
      simp only [reduceCtorEq, false_and, exists_false, iff_false]
      rintro ⟨report, ran⟩
      cases ran
  | ok given =>
      simp only [Except.ok.injEq, exists_eq_left']
      rfl

/-- What a command leaves, the next one finds. -/
theorem Finishes.of_bind {first : ReportT (StateM FileTree) value}
    {next : value → ReportT (StateM FileTree) result}
    (done : Finishes (first >>= next) output tree ended final) :
    ∃ given between middle, Finishes first output tree given middle ∧
      Finishes (next given) between middle ended final := by
  rcases done with ⟨shown, ran⟩
  have step : ((first >>= next).run.run output) tree =
      (ExceptT.bindCont next ((first.run.run output) tree).1.1
        ((first.run.run output) tree).1.2) ((first.run.run output) tree).2 :=
    rfl
  rw [step] at ran
  rcases reached : (first.run.run output) tree with
    ⟨⟨_ | given, between⟩, middle⟩
  · rw [reached] at ran
    cases ran
  · rw [reached] at ran
    exact ⟨given, between, middle, ⟨between, reached⟩, shown, ran⟩

theorem finishes_report {text : String} :
    Finishes (report text) output tree () final ↔ final = tree := by
  constructor
  · rintro ⟨shown, ran⟩
    cases ran
    rfl
  · rintro rfl
    exact ⟨_, rfl⟩

theorem exists_finishes {command : ReportT (StateM FileTree) Unit}
    (succeeds : ((command.run.run output) tree).1.1.isOk = true) :
    ∃ final, Finishes command output tree () final := by
  rcases ran : (command.run.run output) tree with ⟨⟨_ | ⟨⟩, shown⟩, final⟩
  · rw [ran] at succeeds
    cases succeeds
  · exact ⟨final, shown, ran⟩

theorem finishes_pure : Finishes (pure ended) output tree ended final ↔
    final = tree := by
  constructor
  · rintro ⟨shown, ran⟩
    cases ran
    rfl
  · rintro rfl
    exact ⟨_, rfl⟩

end Finishing

/-! ## Stages of a source -/

/-- Show the dump and the print of a program, as far as they are asked for. -/
def showProgram (printer : Program → String) (options : AssembleOptions)
    (program : Program) : ReportT (StateM FileTree) Unit := do
  if options.dump then
    report "Dumping Assembled Instructions:\n"
    report (← require .listing (Machine.dump program.words))
  if options.inspect then
    report (printer program)

/-- Write an output and report its path, if it is asked for. -/
def writeOutput {failure : Type} (asked : Bool) (label path : String)
    (wrap : failure → CommandError) (production : Production failure) :
    ReportT (StateM FileTree) Unit := do
  if asked then
    require (ofWriteError wrap) (← host (writeFile path production))
    report (label ++ path ++ "\n")

/-- Report the end of the work on a source. -/
def closeReport (options : AssembleOptions) (started : Nat) :
    ReportT (StateM FileTree) Unit := do
  let finished ← host Host.clock
  report (paint options.coloured .green "ASSEMBLY PROCESS COMPLETE!" ++ "\n")
  report ("[Finished in " ++ milliseconds (finished - started) ++ "ms]\n")

/-- A source is assembled in stages. -/
theorem assembleSource_eq (printer : Program → String)
    (options : AssembleOptions) (source : String) :
    (assembleSource printer options source : ReportT (StateM FileTree) Unit) =
      (do
      let started ← host Host.clock
      let (full, directory) ← require .noSource (← host (locateFile source))
      report ("Source File: " ++ full ++ "\n")
      let outputDirectory :=
        if options.outputDirectory = "" then directory
          else options.outputDirectory
      let text ← require .file (← host (readText full))
      let program ← require .assembly (assemble source text)
      showProgram printer options program
      writeOutput options.image "Output Binary: "
        (outputPath full outputDirectory ".bin")
        .imageWrite (Image.production program.words)
      writeOutput options.listing "Output Disassembly: "
        (outputPath full outputDirectory ".dsm")
        .listing (Machine.listingProduction program.words)
      closeReport options started) := by
  unfold assembleSource showProgram writeOutput closeReport
  cases options.dump <;> cases options.inspect <;> cases options.image <;>
    cases options.listing <;>
    simp only [if_true, if_false, Bool.false_eq_true, bind_assoc, pure_bind]

section Stages

variable {output : String} {tree final : FileTree}

/-- Reports do not change the tree. -/
theorem Finishes.of_showProgram {printer : Program → String}
    {options : AssembleOptions} {program : Program}
    (done : Finishes (showProgram printer options program) output tree
      () final) :
    final = tree := by
  unfold showProgram at done
  cases dump : options.dump <;> cases inspect : options.inspect <;>
    simp only [dump, inspect, if_true, if_false, Bool.false_eq_true,
      finishes_report_bind, finishes_require_bind, finishes_report,
      finishes_pure] at done
  · exact done
  · exact done
  · rcases done with ⟨-, -, done⟩
    exact done
  · rcases done with ⟨-, -, done⟩
    exact done

theorem Finishes.of_closeReport {options : AssembleOptions} {started : Nat}
    (done : Finishes (closeReport options started) output tree () final) :
    final = tree := by
  unfold closeReport at done
  rw [finishes_host_bind, finishes_report_bind, finishes_report] at done
  exact done

/-- An output is written if it is asked for, and then no other file changes. -/
theorem Finishes.of_writeOutput {failure : Type} {asked : Bool}
    {label path : String} {wrap : failure → CommandError}
    {production : Production failure}
    (done : Finishes (writeOutput asked label path wrap production) output tree
      () final) :
    Spares (if asked then [tree.place path] else []) tree final ∧
      (asked = true →
        production.failure? = none ∧
          final.read path = .ok production.content) := by
  unfold writeOutput at done
  cases asked with
  | false =>
      cases finishes_pure.mp done
      exact ⟨.refl _, by simp⟩
  | true =>
      rw [if_pos rfl, finishes_host_bind, finishes_require_bind] at done
      rcases done with ⟨⟨⟩, succeeded, reported⟩
      have written :
          (writeFile path production : StateM FileTree _) tree =
            (.ok (), final) := by
        rw [finishes_report.mp reported]
        exact Prod.ext succeeded rfl
      rcases spares_of_writeFile written with ⟨spares, read⟩
      exact ⟨spares, fun _ => ⟨(writeFile_eq_ok_iff.mp written).1, read⟩⟩

end Stages

/-! ## Paths of a source -/

/-- The path of a source from the root. -/
def fullPath (tree : FileTree) (source : String) : String :=
  String.ofList
    (Path.absolute ("/" ++ "/".intercalate tree.workingDirectory).toList
      source.toList)

/--
The path of an output of a source, next to it or in the directory of the
options.
-/
def outputOf (options : AssembleOptions) (tree : FileTree)
    (source extension : String) : String :=
  outputPath (fullPath tree source)
    (if options.outputDirectory = "" then
      String.ofList (Path.directory (fullPath tree source).toList)
    else
      options.outputDirectory)
    extension

/-- The places of the outputs that are asked for. -/
def outputPlaces (options : AssembleOptions) (tree : FileTree)
    (source : String) : List Place :=
  (if options.image then [tree.place (outputOf options tree source ".bin")]
    else []) ++
    (if options.listing then
      [tree.place (outputOf options tree source ".dsm")] else [])

/-- The name of an output ends with its extension. -/
theorem exists_getLast?_outputOf (options : AssembleOptions) (tree : FileTree)
    (source : String) {extension : String}
    (isExtension : Path.IsExtension extension.toList) :
    ∃ start, (tree.place (outputOf options tree source extension)).getLast? =
      some (String.ofList (start ++ extension.toList)) := by
  have nonempty : (if options.outputDirectory = "" then
      String.ofList (Path.directory (fullPath tree source).toList)
    else options.outputDirectory).toList ≠ [] := by
    split
    case isTrue =>
      rw [String.toList_ofList]
      exact Path.clean_ne_nil _
    case isFalse some => simpa using some
  exact ⟨_,
    tree.getLast?_place (isExtension.isName (Path.slash_notMem_lastName _))
      (Path.endsWith_output nonempty isExtension)⟩

/-- An image and a listing never have the same place. -/
theorem place_image_ne_listing (options : AssembleOptions) (tree : FileTree)
    (source other : String) :
    tree.place (outputOf options tree source ".bin") ≠
      tree.place (outputOf options tree other ".dsm") := by
  intro same
  have bin : Path.IsExtension ".bin".toList :=
    ⟨⟨['b', 'i', 'n'], by simp⟩, by simp⟩
  have dsm : Path.IsExtension ".dsm".toList :=
    ⟨⟨['d', 's', 'm'], by simp⟩, by simp⟩
  rcases exists_getLast?_outputOf options tree source bin with ⟨start, last⟩
  rcases exists_getLast?_outputOf options tree other dsm with
    ⟨otherStart, otherLast⟩
  rw [same, otherLast, Option.some.injEq] at last
  have ends := congrArg (fun name => name.toList.getLast?) last
  simp at ends

/-- A source is located by its path from the root, and nothing changes. -/
theorem locateFile_run (tree : FileTree) (source : String) :
    (locateFile source : StateM FileTree _) tree =
      (match tree.inspect (fullPath tree source) with
        | .ok (.file _) =>
            .ok (fullPath tree source,
              String.ofList (Path.directory (fullPath tree source).toList))
        | .ok .directory => .error (.irregular (fullPath tree source))
        | .error refusal =>
        .error (.refused .inspecting (fullPath tree source) refusal),
        tree) := by
  have start : (FileAccess.workingDirectory : StateM FileTree _) tree =
      ("/" ++ "/".intercalate tree.workingDirectory, tree) :=
    rfl
  have regular (path : String) :
      (FileAccess.isRegular path : StateM FileTree _) tree =
      match tree.inspect path with
      | .ok (.file _) => (.ok true, tree)
      | .ok .directory => (.ok false, tree)
      | .error refusal => (.error (.refused .inspecting path refusal), tree) :=
    rfl
  have full : String.ofList (Path.absolute
      ("/" ++ "/".intercalate tree.workingDirectory).toList source.toList) =
      fullPath tree source :=
    rfl
  rw [locateFile, bind_run, start]
  change (_ >>= _ : StateM FileTree _) tree = _
  rw [bind_run, regular, full]
  rcases tree.inspect (fullPath tree source) with refusal | ⟨content⟩ | ⟨⟩
  · rfl
  · rw [← full, String.toList_ofList]
    rfl
  · rfl

theorem readText_run (tree : FileTree) (path : String) :
    (readText path : StateM FileTree _) tree =
      ((tree.read path).map (fun content =>
        String.ofList (Text.decode content)), tree) := by
  have reading :
      (FileAccess.read path : StateM FileTree _) tree =
        (tree.read path, tree) := rfl
  rw [readText, bind_run, reading]
  cases tree.read path with
  | error error => rfl
  | ok content => rfl

/-! ## One source -/

/-- The words of a source, if its file can be read and its text assembled. -/
def wordsOf? (tree : FileTree) (source : String) : Option (List Word) :=
  match tree.read (fullPath tree source) with
  | .error _ => none
  | .ok content =>
      match assemble source (String.ofList (Text.decode content)) with
      | .error _ => none
      | .ok program => some program.words

theorem exists_read_of_wordsOf? {tree : FileTree} {source : String}
    {words : List Word} (ofSource : wordsOf? tree source = some words) :
    ∃ content, tree.read (fullPath tree source) = .ok content := by
  unfold wordsOf? at ofSource
  split at ofSource
  case h_1 => cases ofSource
  case h_2 content known => exact ⟨content, known⟩

/-- The image of a source, as one tree has it, stands at its path in another. -/
def HasImage (options : AssembleOptions) (source : String)
    (tree final : FileTree) : Prop :=
  ∃ words image, wordsOf? tree source = some words ∧
    Image.write words = .ok image ∧
    final.read (outputOf options tree source ".bin") = .ok image

/--
What the assembly of a source does to a tree: its image is written if it is
asked for, and no files but its outputs change.
-/
structure Assembled (options : AssembleOptions) (source : String)
    (tree final : FileTree) : Prop where
  spares : Spares (outputPlaces options tree source) tree final
  image : options.image = true → HasImage options source tree final

theorem Finishes.assembled {printer : Program → String}
    {options : AssembleOptions} {source output : String} {tree final : FileTree}
    (done : Finishes (assembleSource printer options source) output tree
      () final) :
    Assembled options source tree final := by
  have clock : (Host.clock : StateM FileTree Nat) tree = (0, tree) := rfl
  rw [assembleSource_eq, finishes_host_bind, clock, finishes_host_bind,
    locateFile_run, finishes_require_bind] at done
  rcases done with ⟨located, found, done⟩
  have paths : located = (fullPath tree source,
      String.ofList (Path.directory (fullPath tree source).toList)) := by
    dsimp only at found
    split at found
    case h_1 => exact (Except.ok.inj found).symm
    case h_2 => cases found
    case h_3 => cases found
  subst paths
  rw [finishes_report_bind, finishes_host_bind, readText_run,
    finishes_require_bind] at done
  rcases done with ⟨text, read, done⟩
  rw [finishes_require_bind] at done
  rcases done with ⟨program, accepted, done⟩
  have words : wordsOf? tree source = some program.words := by
    unfold wordsOf?
    cases known : tree.read (fullPath tree source) with
    | error error =>
        rw [known] at read
        cases read
    | ok content =>
        rw [known] at read
        cases read
        dsimp only
        rw [accepted]
  rcases done.of_bind with ⟨⟨⟩, _, shownTree, shown, done⟩
  rcases done.of_bind with ⟨⟨⟩, _, imageTree, image, done⟩
  rcases done.of_bind with ⟨⟨⟩, _, listingTree, listing, closed⟩
  cases shown.of_showProgram
  cases closed.of_closeReport
  rcases image.of_writeOutput with ⟨imageSpares, written⟩
  rcases listing.of_writeOutput with ⟨listingSpares, -⟩
  change Spares (if options.image then
    [tree.place (outputOf options tree source ".bin")] else [])
    tree imageTree at imageSpares
  change Spares
    (if options.listing then
      [imageTree.place (outputOf options tree source ".dsm")] else [])
    imageTree final at listingSpares
  rw [imageSpares.place_eq] at listingSpares
  refine ⟨imageSpares.trans listingSpares, ?_⟩
  intro asked
  rcases written asked with ⟨whole, atImage⟩
  refine ⟨_, _, words, Image.write_of_production whole,
    listingSpares.read ?_ atImage⟩
  rw [imageSpares.place_eq]
  split
  case isTrue => simpa using place_image_ne_listing options tree source source
  case isFalse => simp

/-! ## Runs -/

/--
Paths depend on the tree only by its working directory, which never changes.
-/
theorem outputOf_eq {touched : List Place} {tree later : FileTree}
    (spares : Spares touched tree later) (options : AssembleOptions)
    (source : String) :
    fullPath later source = fullPath tree source ∧
      outputOf options later source = outputOf options tree source ∧
      outputPlaces options later source = outputPlaces options tree source := by
  have full : fullPath later source = fullPath tree source := by
    rw [fullPath, fullPath, spares.start]
  have output :
      outputOf options later source = outputOf options tree source := by
    funext extension
    rw [outputOf, outputOf, full]
  refine ⟨full, output, ?_⟩
  rw [outputPlaces, outputPlaces, output, spares.place_eq, spares.place_eq]

/--
Sources are assembled in order, each in the tree that the one before it leaves.
-/
inductive Runs (options : AssembleOptions) :
    List String → FileTree → FileTree → Prop where
  | nil {tree : FileTree} : Runs options [] tree tree
  | cons {source : String} {rest : List String} {tree middle final : FileTree}
      (first : Assembled options source tree middle)
      (others : Runs options rest middle final) :
      Runs options (source :: rest) tree final

theorem Finishes.runs {printer : Program → String} {options : AssembleOptions}
    {sources : List String} {output : String} {tree final : FileTree}
    (done : Finishes (assembleSources printer options sources) output tree
      () final) :
    Runs options sources tree final := by
  induction sources generalizing output tree with
  | nil =>
      cases finishes_pure.mp done
      exact .nil
  | cons source rest ih =>
      rcases done.of_bind with ⟨⟨⟩, _, middle, first, others⟩
      exact .cons first.assembled (ih others)

/-- A source has the same content before and after a run. -/
def IsKept (source : String) (tree final : FileTree) : Prop :=
  ∃ content, tree.read (fullPath tree source) = .ok content ∧
    final.read (fullPath tree source) = .ok content

namespace Runs

variable {options : AssembleOptions} {tree final : FileTree}

/-- A run changes no files but the outputs of its sources. -/
theorem spares {sources : List String} (run : Runs options sources tree final) :
    Spares (sources.flatMap (outputPlaces options tree)) tree final := by
  induction run with
  | nil => exact .refl _
  | cons first others ih =>
      have same :=
        funext fun source => (outputOf_eq first.spares options source).2.2
      rw [same] at ih
      exact first.spares.trans ih

theorem of_append {before rest : List String}
    (run : Runs options (before ++ rest) tree final) :
    ∃ middle, Runs options before tree middle ∧
      Runs options rest middle final := by
  induction before generalizing tree with
  | nil => exact ⟨tree, .nil, run⟩
  | cons source before ih =>
      cases run with
      | cons first others =>
          rcases ih others with ⟨middle, early, late⟩
          exact ⟨middle, .cons first early, late⟩

theorem isKept {sources : List String} {source : String} {content : List UInt8}
    (run : Runs options sources tree final)
    (known : tree.read (fullPath tree source) = .ok content)
    (outside : ∀ other ∈ sources,
      tree.place (fullPath tree source) ∉ outputPlaces options tree other) :
    IsKept source tree final :=
  ⟨content, known, run.spares.read (by simpa using outside) known⟩

/--
A source that no earlier output replaces has the words that it had before the
run.
-/
theorem wordsOf?_eq {before : List String} {source : String}
    {content : List UInt8} (run : Runs options before tree final)
    (known : tree.read (fullPath tree source) = .ok content)
    (outside : ∀ earlier ∈ before,
      tree.place (fullPath tree source) ∉ outputPlaces options tree earlier) :
    wordsOf? final source = wordsOf? tree source := by
  have kept : final.read (fullPath tree source) = .ok content :=
    run.spares.read (by simpa using outside) known
  unfold wordsOf?
  rw [(outputOf_eq run.spares options source).1, kept, known]

/-- The place of an image is no output of sources that have other images. -/
theorem place_image_notMem {source : String} {others : List String}
    (unshared : ∀ other ∈ others,
      tree.place (outputOf options tree other ".bin") ≠
      tree.place (outputOf options tree source ".bin")) :
    tree.place (outputOf options tree source ".bin") ∉
      others.flatMap (outputPlaces options tree) := by
  rw [List.mem_flatMap]
  rintro ⟨other, member, place⟩
  rw [outputPlaces, List.mem_append] at place
  rcases place with image | listing
  · split at image
    case isTrue =>
      exact unshared other member (List.mem_singleton.mp image).symm
    case isFalse => cases image
  · split at listing
    case isTrue =>
      exact place_image_ne_listing options tree source other
        (List.mem_singleton.mp listing)
    case isFalse => cases listing

theorem hasImage {before after : List String} {source : String}
    {content : List UInt8}
    (run : Runs options (before ++ source :: after) tree final)
    (image : options.image = true)
    (known : tree.read (fullPath tree source) = .ok content)
    (unread : ∀ earlier ∈ before,
      tree.place (fullPath tree source) ∉ outputPlaces options tree earlier)
    (unshared : ∀ later ∈ after,
      tree.place (outputOf options tree later ".bin") ≠
      tree.place (outputOf options tree source ".bin")) :
    HasImage options source tree final := by
  rcases run.of_append with ⟨early, runBefore, runRest⟩
  cases runRest with
  | @cons _ _ _ late _ assembled runAfter =>
      rcases assembled.image image with
        ⟨words, bytes, ofSource, written, atOutput⟩
      rw [runBefore.wordsOf?_eq known unread] at ofSource
      refine ⟨words, bytes, ofSource, written, ?_⟩
      rw [(outputOf_eq runBefore.spares options source).2.1] at atOutput
      have spares := runBefore.spares.trans assembled.spares
      have same := funext fun other => (outputOf_eq spares options other).2.2
      have spared := runAfter.spares
      rw [same] at spared
      refine spared.read ?_ atOutput
      rw [spares.place_eq]
      exact place_image_notMem unshared

end Runs

/--
After a run that succeeds, each source that is no output of an earlier one and
whose image is not replaced by that of a later one has its own image, and each
source that is no output is kept.  This is so whatever the printer shows of the
programs.
-/
theorem sources_undisturbed {printer : Program → String}
    {options : AssembleOptions} {sources : List String} {output : String}
    {tree final : FileTree} (image : options.image = true)
    (regular : ∀ source ∈ sources, ∃ content,
      tree.read (fullPath tree source) = .ok content)
    (done : Finishes (assembleSources printer options sources) output tree
      () final) :
    (∀ before source after, sources = before ++ source :: after →
      (∀ earlier ∈ before, tree.place (fullPath tree source) ∉
        outputPlaces options tree earlier) →
      (∀ later ∈ after, tree.place (outputOf options tree later ".bin") ≠
        tree.place (outputOf options tree source ".bin")) →
      HasImage options source tree final) ∧
    ∀ source ∈ sources,
      (∀ other ∈ sources, tree.place (fullPath tree source) ∉
        outputPlaces options tree other) →
      IsKept source tree final := by
  constructor
  · rintro before source after rfl unread unshared
    rcases regular source (by simp) with ⟨content, known⟩
    exact done.runs.hasImage image known unread unshared
  · intro source member outside
    rcases regular source member with ⟨content, known⟩
    exact done.runs.isKept known outside

/--
Three sources, two of which have the same image, and one of which is its own
image.
-/
def workshop : FileTree where
  workingDirectory := []
  entries :=
    [(["x.s"], .file (Text.encode ".section instruction\n pop pc".toList)),
      (["x.asm"], .file (Text.encode ".section instruction\n don".toList)),
      (["y.bin"], .file (Text.encode ".section instruction\n don".toList))]

theorem words_of_workshop :
    wordsOf? workshop "x.s" = some [0xE0000E] ∧
      wordsOf? workshop "x.asm" = some [0] ∧
      wordsOf? workshop "y.bin" = some [0] := by
  decide +kernel

/--
In a directory of their own, the outputs replace no source, but one image
replaces another.
-/
theorem undisturbed_of_workshop :
    ∃ final, Finishes
        (assembleSources inspect { outputDirectory := "out", listing := true }
          ["x.s", "x.asm", "y.bin"])
        "" workshop () final ∧
      HasImage { outputDirectory := "out", listing := true } "x.asm"
        workshop final ∧
      IsKept "y.bin" workshop final := by
  rcases @exists_finishes "" workshop
    (assembleSources inspect { outputDirectory := "out", listing := true }
      ["x.s", "x.asm", "y.bin"]) (by decide +kernel) with ⟨final, done⟩
  have regular : ∀ source ∈ ["x.s", "x.asm", "y.bin"],
      ∃ content, workshop.read (fullPath workshop source) = .ok content := by
    rcases words_of_workshop with ⟨first, second, third⟩
    simp only [List.forall_mem_cons, List.not_mem_nil, false_imp_iff,
      implies_true, and_true]
    exact ⟨exists_read_of_wordsOf? first, exists_read_of_wordsOf? second,
      exists_read_of_wordsOf? third⟩
  rcases sources_undisturbed rfl regular done with ⟨images, kept⟩
  refine ⟨final, done, images ["x.s"] "x.asm" ["y.bin"] rfl ?_ ?_,
    kept "y.bin" (by simp) ?_⟩
  · decide +kernel
  · decide +kernel
  · decide +kernel

/--
Next to the sources, their outputs disturb them.  They are three distinct files
that are assembled, but the image of the second replaces that of the first, and
the third is replaced by its own.
-/
theorem shared_outputs_replaced :
    (["x.s", "x.asm", "y.bin"].map fun source =>
      workshop.place (fullPath workshop source)).Nodup ∧
    (wordsOf? workshop "x.s" = some [0xE0000E] ∧
      wordsOf? workshop "x.asm" = some [0] ∧
      wordsOf? workshop "y.bin" = some [0]) ∧
    ∃ final,
      Finishes (assembleSources inspect {} ["x.s", "x.asm", "y.bin"]) ""
        workshop () final ∧
      ¬ HasImage {} "x.s" workshop final ∧ ¬ IsKept "y.bin" workshop final := by
  rcases words_of_workshop with ⟨ofX, ofAsm, ofY⟩
  rcases @exists_finishes "" workshop
    (assembleSources inspect {} ["x.s", "x.asm", "y.bin"])
    (by decide +kernel) with ⟨final, done⟩
  refine ⟨by decide +kernel, ⟨ofX, ofAsm, ofY⟩, final, done, ?_, ?_⟩
  · rintro ⟨_, image, ofFirst, written, atFirst⟩
    rcases exists_read_of_wordsOf? ofAsm with ⟨content, known⟩
    have run : Runs {} (["x.s"] ++ "x.asm" :: ["y.bin"]) workshop final :=
      done.runs
    rcases run.hasImage rfl known (by decide +kernel) (by decide +kernel) with
      ⟨_, other, ofSecond, otherWritten, atSecond⟩
    have path :
        outputOf {} workshop "x.asm" ".bin" =
          outputOf {} workshop "x.s" ".bin" := by
      decide +kernel
    rw [path, atFirst, Except.ok.injEq] at atSecond
    subst atSecond
    rw [ofX, Option.some.injEq] at ofFirst
    rw [ofAsm, Option.some.injEq] at ofSecond
    subst ofFirst ofSecond
    have first := (Image.write_eq_ok_iff.mp written).2.program 0 0xE0000E rfl
    have second := (Image.write_eq_ok_iff.mp otherWritten).2.program 0 0 rfl
    rw [first] at second
    cases second
  · rintro ⟨content, known, kept⟩
    have run : Runs {} (["x.s", "x.asm"] ++ "y.bin" :: []) workshop final :=
      done.runs
    rcases run.hasImage rfl known (by decide +kernel) (by simp) with
      ⟨_, image, -, written, atThird⟩
    have path :
        outputOf {} workshop "y.bin" ".bin" = fullPath workshop "y.bin" := by
      decide +kernel
    rw [path, kept, Except.ok.injEq] at atThird
    subst atThird
    have short : (workshop.read (fullPath workshop "y.bin")).map List.length =
        .ok 25 := by
      decide +kernel
    rw [known, Except.map, (Image.write_eq_ok_iff.mp written).2.length] at short
    cases short

end Asm24.CommandLine
