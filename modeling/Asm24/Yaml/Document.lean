import Asm24.Text.Quoted
import Asm24.Yaml.Node
import Asm24.Yaml.Stream
import Asm24.Yaml.Value

/-!
# Documents of entries

A document of entries is a mapping from names to values.  The names are texts: a
scalar of another kind is taken as it is written, and an empty one is left out
with its value.  A name may stand once.  An entry whose key is a merge sign adds
the entries of other mappings, unless their names are already there.

All of a document is checked, also the parts of values that have no use.  Faults
of meaning end the reading at once, while values of the wrong form are collected
and reported together.
-/

namespace Asm24.Yaml

/--
How much of a document is checked, and which values do not have the form that is
asked for.
-/
structure Progress where
  /-- The nodes that were visited. -/
  visits : Nat := 0
  /-- The visits inside of aliases. -/
  aliasVisits : Nat := 0
  /-- How many aliases are around the present node. -/
  depth : Nat := 0
  descriptions : List String := []
  deriving Repr

/-- A step of checking a document. -/
abbrev CheckM := StateT Progress (Except Fault)

/--
Whether aliases make up too much of a document: more than 99 of a hundred
visits, and less in documents of more than 400000 visits.
-/
def isExcessive (visits aliasVisits : Nat) : Bool :=
  let share :=
    if visits ≤ 400000 then 99 * 3600000
    else if 4000000 ≤ visits then 10 * 3600000
    else 99 * 3600000 - 89 * (visits - 400000)
  decide (100 < aliasVisits ∧ 1000 < visits ∧
    visits * share < aliasVisits * 360000000)

namespace CheckM

/-- Count a visit of a node. -/
def visit : CheckM Unit := do
  let progress ← get
  let visits := progress.visits + 1
  let aliasVisits :=
    if progress.depth = 0 then
      progress.aliasVisits
    else
      progress.aliasVisits + 1
  if isExcessive visits aliasVisits then
    throw (.meaning .excessiveAliases)
  else
    set { progress with visits, aliasVisits }

/-- Do something inside of an alias. -/
def inAlias {result : Type} (step : CheckM result) : CheckM result := do
  modify fun progress => { progress with depth := progress.depth + 1 }
  let result ← step
  modify fun progress => { progress with depth := progress.depth - 1 }
  return result

/-- Take note of a value that does not have the form that is asked for. -/
def describe (line : Nat) (description : String) : CheckM Unit :=
  modify fun progress =>
    { progress with
      descriptions := progress.descriptions ++
        ["line " ++ toString (line + 1) ++ ": " ++ description] }

end CheckM

namespace Node

/-- Whether a key is a merge sign. -/
def isMerge : Node → Bool
  | .scalar _ tag plain text =>
      text == "<<" && (tag == "!!merge" || (tag == "" && plain))
  | _ => false

/--
Whether two keys count as the same: they are of one kind and have one text.
-/
def sameKey : Node → Node → Bool
  | .scalar _ _ _ first, .scalar _ _ _ second => first == second
  | .sequence _ _ _, .sequence _ _ _ => true
  | .mapping _ _ _, .mapping _ _ _ => true
  | .alias _ first _, .alias _ second _ => first == second
  | _, _ => false

/-- The text of a key in messages. -/
def keyText : Node → String
  | .scalar _ _ _ text => text
  | .alias _ name _ => name
  | _ => ""

/-- Whether a node is a mapping, or an alias of one. -/
def isMapping : Node → Bool
  | .mapping _ _ _ => true
  | .alias _ _ (some (.mapping _ _ _)) => true
  | .alias _ _ none => true
  | _ => false

end Node

/-- Report the keys that stand more than once; whether there are any. -/
def describeRepeated : List (Node × Node) → CheckM Bool
  | [] => return false
  | (key, _) :: rest => do
      let repeated := rest.filter fun entry => key.sameKey entry.1
      repeated.forM fun entry =>
        CheckM.describe entry.1.line
          ("mapping key " ++ Text.quote entry.1.keyText ++
            " already defined at line " ++
            toString (key.line + 1))
      let others ← describeRepeated rest
      return !repeated.isEmpty || others

/-- Whether a merge may take a value: a mapping, or a sequence of mappings. -/
def checkMerge (value : Node) : CheckM Unit :=
  match value with
  | .sequence _ _ items =>
      if items.all Node.isMapping then
        pure ()
      else
        throw (.meaning .mergeOfNoMapping)
  | value =>
      if value.isMapping then pure () else throw (.meaning .mergeOfNoMapping)

/-- The tag of a node, as its form or its tag tells. -/
def Node.kindTag : Node → String
  | .scalar _ tag plain text =>
      if tag ≠ "" then tag
      else if !plain then "!!str"
      else if text = "<<" then "!!merge"
      else (Value.ofPlain true text).tag
  | .sequence _ tag _ => if tag = "" then "!!seq" else tag
  | .mapping _ tag _ => if tag = "" then "!!map" else tag
  | .alias _ _ (some target) => target.kindTag
  | .alias _ _ none => ""

/-- A value of a scalar inside of a key, in messages. -/
def shownScalar : Value → String
  | .null => "interface \x7b\x7d(nil)"
  | .text value => Text.quote value
  | .integer value =>
      if 0x8000000000000000 ≤ value then
        "0x" ++ Text.hexLower 0 value.toNat
      else
        toString value
  | value => value.toText

mutual

/-- A node inside of a key, in messages. -/
def shownNode : Node → String
  | .scalar _ tag plain text =>
      match Value.ofScalar tag plain text with
      | .ok value => shownScalar value
      | .error _ => Text.quote text
  | .sequence _ _ items =>
      "[]interface \x7b\x7d\x7b" ++ ", ".intercalate (shownNodes items) ++
        "\x7d"
  | .mapping _ _ entries =>
      let named :=
        entries.all fun entry => ["!!str", "!!merge"].contains entry.1.kindTag
      let shown := (shownEntries entries).mergeSort fun first second =>
        decide (first ≤ second)
      (if named then "map[string]" else "map[interface \x7b\x7d]") ++
        "interface \x7b\x7d\x7b" ++
        ", ".intercalate shown ++ "\x7d"
  | .alias _ _ (some target) => shownNode target
  | .alias _ _ none => ""

/-- Nodes inside of a key, in messages. -/
def shownNodes : List Node → List String
  | [] => []
  | node :: rest => shownNode node :: shownNodes rest

/-- Entries inside of a key, in messages. -/
def shownEntries : List (Node × Node) → List String
  | [] => []
  | (key, value) :: rest =>
      (shownNode key ++ ":" ++ shownNode value) :: shownEntries rest

end

mutual

/-- Check a node, and give its value. -/
def checkNode : Node → CheckM Value
  | .scalar _ tag plain text => do
      CheckM.visit
      Value.ofScalar tag plain text
  | .alias _ name target? => do
      CheckM.visit
      match target? with
      | some target => CheckM.inAlias (checkNode target)
      | none => throw (.meaning (.containsItself name))
  | .sequence _ _ items => do
      CheckM.visit
      checkNodes items
      return .collection
  | .mapping _ _ entries => do
      CheckM.visit
      if ← describeRepeated entries then
        return .collection
      else
        checkEntries entries
        return .collection

/-- Check some nodes. -/
def checkNodes : List Node → CheckM Unit
  | [] => return
  | node :: rest => do
      let _ ← checkNode node
      checkNodes rest

/-- Check the entries of a mapping that is a value. -/
def checkEntries : List (Node × Node) → CheckM Unit
  | [] => return
  | (key, value) :: rest => do
      if key.isMerge then
        checkEntries rest
        checkMerge value
        let _ ← checkNode value
      else
        if (← checkNode key) == .collection then
          throw (.meaning (.invalidKey (shownNode key)))
        let _ ← checkNode value
        checkEntries rest

end

/-- The first characters of a value in messages. -/
def shownValue (text : String) : String :=
  let bytes := Text.encode text.toList
  if 10 < bytes.length then
    " `" ++ String.ofList (Text.decode (bytes.take 7)) ++ "...`"
  else
    " `" ++ text ++ "`"

/-- Take note that a node does not have the form that is asked for. -/
def describeForm (line : Nat) (tag : String) (text : String) (wanted : String) :
    CheckM Unit :=
  let shown := if tag = "!!seq" ∨ tag = "!!map" then "" else shownValue text
  CheckM.describe line ("cannot unmarshal " ++ tag ++ shown ++
    " into " ++ wanted)

/-- The name that a key stands for, if it has one. -/
def nameOf? : Node → CheckM (Option String)
  | .scalar _ tag plain text => do
      CheckM.visit
      match ← Value.ofScalar tag plain text with
      | .null => return none
      | .text value => return some value
      | _ => return some text
  | .sequence line tag _ => do
      CheckM.visit
      describeForm line (if tag = "" then "!!seq" else tag) "" "string"
      return none
  | .mapping line tag entries => do
      CheckM.visit
      if !(← describeRepeated entries) then
        describeForm line (if tag = "" then "!!map" else tag) "" "string"
      return none
  | .alias _ name target? => do
      CheckM.visit
      match target? with
      | some target => CheckM.inAlias (nameOf? target)
      | none => throw (.meaning (.containsItself name))

/-- An entry of a document. -/
abbrev Entry := String × Value

/-- The entries together with those of a list whose names are not among them. -/
def addMissing (entries more : List Entry) : List Entry :=
  more.foldl
    (fun entries entry =>
      if (entries.lookup entry.1).isSome then entries
        else entries ++ [entry]) entries

mutual

/--
The entries of a mapping of names, apart from merges, which are read last.
-/
def entriesOf : List (Node × Node) → CheckM (List Entry × List Entry)
  | [] => return ([], [])
  | (key, value) :: rest => do
      if key.isMerge then
        let (entries, merged) ← entriesOf rest
        checkMerge value
        return (entries, merged ++ (← mergedOf value))
      else
        match ← nameOf? key with
        | some name =>
            let found ← checkNode value
            let (entries, merged) ← entriesOf rest
            return ((name, found) :: entries, merged)
        | none => entriesOf rest

/--
The entries of mappings that are merged, those of the first mapping first.
-/
def mergedOf : Node → CheckM (List Entry)
  | .mapping _ _ entries => do
      CheckM.visit
      if ← describeRepeated entries then
        return []
      else
        let (entries, merged) ← entriesOf entries
        return addMissing entries merged
  | .sequence _ _ items => mergedOfAll items
  | .alias _ name target? => do
      CheckM.visit
      match target? with
      | some target => CheckM.inAlias (mergedOf target)
      | none => throw (.meaning (.containsItself name))
  | .scalar _ _ _ _ => return []

/-- The entries of some mappings, those of the first mapping first. -/
def mergedOfAll : List Node → CheckM (List Entry)
  | [] => return []
  | node :: rest => do
      let entries ← mergedOf node
      return addMissing entries (← mergedOfAll rest)

end

/-- What a document of entries is called in messages. -/
def entriesForm : String := "map[string]interface \x7b\x7d"

/-- The entries of the root of a document. -/
def rootEntries : Node → CheckM (List Entry)
  | .scalar line tag plain text => do
      CheckM.visit
      match ← Value.ofScalar tag plain text with
      | .null => return []
      | value =>
          let tag := if tag = "" then value.tag else tag
          describeForm line tag text entriesForm
          return []
  | .sequence line tag _ => do
      CheckM.visit
      describeForm line (if tag = "" then "!!seq" else tag) "" entriesForm
      return []
  | node => mergedOf node

/-- The entries of the document in a byte string. -/
def readEntries (bytes : List UInt8) : Except Fault (List Entry) := do
  match ← Node.ofText? (← characters bytes) with
  | none => return []
  | some root =>
      let (entries, progress) ← (rootEntries root).run {}
      if progress.descriptions.isEmpty then
        return entries
      else
        throw (.forms progress.descriptions)

end Asm24.Yaml
