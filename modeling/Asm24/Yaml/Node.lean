import Asm24.Yaml.Token

/-!
# Nodes

A document is a tree of scalars, sequences and mappings.  A node may be named by
an anchor and used again by an alias; an alias holds the node that it names,
unless it stands inside of that node.

Trees are read from tokens by recursive descent, one function for each kind of
collection.
-/

namespace Asm24.Yaml

/--
A node of a document, with the line on which it starts and its tag, which is
empty if none is given.
-/
inductive Node where
  | scalar (line : Nat) (tag : String) (plain : Bool) (text : String)
  | sequence (line : Nat) (tag : String) (items : List Node)
  | mapping (line : Nat) (tag : String) (entries : List (Node × Node))
  /-- Another use of a named node; it is missing inside of the node itself. -/
  | alias (line : Nat) (name : String) (target? : Option Node)
  deriving Repr

/-- The line on which a node starts. -/
def Node.line : Node → Nat
  | .scalar line _ _ _ => line
  | .sequence line _ _ => line
  | .mapping line _ _ => line
  | .alias line _ _ => line

/--
An anchor: a name, the number of its node among the named ones, and the node
once it is read.
-/
structure Anchor where
  name : String
  number : Nat
  node? : Option Node
  deriving Repr

/-- How far the reading of a tree has come. -/
structure Reading where
  tokens : Tokens
  anchors : List Anchor := []
  /-- The meaning of the handles of tags. -/
  handles : List (String × String) := []
  deriving Repr

/-- A step of reading a tree. -/
abbrev ReadM := StateT Reading (Except Fault)

namespace ReadM

/-- The next token. -/
def peek : ReadM Token := do
  let reading ← get
  let (token, tokens) ← reading.tokens.peek
  set { reading with tokens }
  return token

/-- Go on to the token after the next. -/
def advance : ReadM Unit :=
  modify fun reading => { reading with tokens := reading.tokens.advance }

/-- Fail at a token, in a construct that starts on a line. -/
def fail {result : Type} (problem : StructureProblem) (start : Nat)
    (token : Token) : ReadM result :=
  throw (.arrangement problem start token.line)

/--
Give a name to a node that is about to be read, and the number of the node.
-/
def nameNode (name? : Option String) : ReadM Nat := do
  let reading ← get
  let number := reading.anchors.length
  match name? with
  | some name =>
      set { reading with anchors := ⟨name, number, none⟩ :: reading.anchors }
  | none => pure ()
  return number

/-- Enter a node that is read, if it has a name. -/
def enterNode (name? : Option String) (number : Nat) (node : Node) :
    ReadM Node := do
  if name?.isSome then
    modify fun reading =>
      { reading with
        anchors := reading.anchors.map fun anchor =>
          if anchor.number = number then { anchor with node? := some node }
            else anchor }
  return node

end ReadM

/-- The scalar that stands where a node is missing. -/
def emptyNode (line : Nat) : Node :=
  .scalar line "" true ""

/-- The common start of the full names of the standard tags. -/
def standardTags : String := "tag:yaml.org,2002:"

/-- The handles that need no directive. -/
def standardHandles : List (String × String) :=
  [("!", "!"), ("!!", standardTags)]

/-- A tag in short form; the tag that says nothing is empty. -/
def shortTag (tag : String) : String :=
  if standardTags.isPrefixOf tag then
    "!!" ++ String.ofList (tag.toList.drop standardTags.length)
  else if tag = "!" then ""
  else tag

/-- The tag that a written tag means, if its handle is known. -/
def WrittenTag.meaning? (handles : List (String × String))
    (written : WrittenTag) : Option String :=
  if written.handle = "" then
    some (shortTag written.suffix)
  else
    (handles.lookup written.handle).map fun replacement =>
      shortTag (replacement ++ written.suffix)

/-- The properties of a node. -/
structure Properties where
  anchor? : Option String := none
  tag? : Option (WrittenTag × Nat) := none
  deriving Repr

/-- Read an anchor and a tag in either order, each at most once. -/
def readProperties : ReadM Properties := do
  match (← ReadM.peek) with
  | ⟨.anchor name, _⟩ =>
      ReadM.advance
      match (← ReadM.peek) with
      | ⟨.tag written, line⟩ =>
          ReadM.advance
          return { anchor? := some name, tag? := some (written, line) }
      | _ => return { anchor? := some name }
  | ⟨.tag written, line⟩ =>
      ReadM.advance
      match (← ReadM.peek) with
      | ⟨.anchor name, _⟩ =>
          ReadM.advance
          return { anchor? := some name, tag? := some (written, line) }
      | _ => return { tag? := some (written, line) }
  | _ => return {}

/-- The tag of a node that starts on a line. -/
def readMeaning (start : Nat) (properties : Properties) : ReadM String := do
  match properties.tag? with
  | none => return ""
  | some (written, line) =>
      match written.meaning? (← get).handles with
      | some tag => return tag
      | none => throw (.arrangement .undefinedHandle start line)

/-- The node that an alias names. -/
def readAlias (name : String) (line : Nat) : ReadM Node := do
  ReadM.advance
  match (← get).anchors.find? (·.name == name) with
  | some anchor => return .alias line name anchor.node?
  | none => throw (.meaning (.unknownAnchor name))

/-- Whether a token ends an entry of a block mapping that has no node. -/
def endsBlockEntry : TokenKind → Bool
  | .key | .value | .blockEnd => true
  | _ => false

/--
Whether a token ends an entry of a collection in brackets that has no node.
-/
def endsFlowEntry (closing : TokenKind) (kind : TokenKind) : Bool :=
  kind == .flowEntry || kind == closing

mutual

/--
Read a node.  `block` says that it may be a collection in block style, and
`level` that it may be a sequence at the indentation of the mapping around it.
-/
def readNode : (fuel : Nat) → (block level : Bool) → ReadM Node
  | 0, _, _ => do throw (.token .depth 0 (← ReadM.peek).line)
  | fuel + 1, block, level => do
      let first ← ReadM.peek
      match first.kind with
      | .alias name => readAlias name first.line
      | _ =>
          let start := first.line
          let properties ← readProperties
          let token ← ReadM.peek
          let tag ← readMeaning start properties
          let number ← ReadM.nameNode properties.anchor?
          let node ←
            match token.kind, block, level with
            | .blockEntry, _, true =>
                pure (.sequence start tag (← readLevelSequence fuel))
            | .scalar plain text, _, _ => do
                ReadM.advance
                pure (.scalar start tag plain text)
            | .flowSequence, _, _ => do
                ReadM.advance
                pure (.sequence start tag
                  (← readFlowSequence fuel token.line true))
            | .flowMapping, _, _ => do
                ReadM.advance
                pure (.mapping start tag
                  (← readFlowMapping fuel token.line true))
            | .blockSequence, true, _ => do
                ReadM.advance
                pure (.sequence start tag (← readBlockSequence fuel token.line))
            | .blockMapping, true, _ => do
                ReadM.advance
                pure (.mapping start tag (← readBlockMapping fuel token.line))
            | _, _, _ =>
                if properties.anchor?.isSome || properties.tag?.isSome then
                  pure (.scalar start tag true "")
                else
                  ReadM.fail .noNode start token
          ReadM.enterNode properties.anchor? number node

/--
Read the entries of a sequence at the indentation of the mapping around it.
-/
def readLevelSequence : (fuel : Nat) → ReadM (List Node)
  | 0 => return []
  | fuel + 1 => do
      let token ← ReadM.peek
      if token.kind == .blockEntry then
        ReadM.advance
        let next ← ReadM.peek
        let item ←
          if next.kind == .blockEntry || endsBlockEntry next.kind then
            pure (emptyNode token.line)
          else readNode fuel true false
        return item :: (← readLevelSequence fuel)
      else
        return []

/-- Read the entries of a sequence in block style. -/
def readBlockSequence : (fuel : Nat) → (start : Nat) → ReadM (List Node)
  | 0, _ => return []
  | fuel + 1, start => do
      let token ← ReadM.peek
      match token.kind with
      | .blockEntry =>
          ReadM.advance
          let next ← ReadM.peek
          let item ←
            if next.kind == .blockEntry || next.kind == .blockEnd then
              pure (emptyNode token.line)
            else readNode fuel true false
          return item :: (← readBlockSequence fuel start)
      | .blockEnd =>
          ReadM.advance
          return []
      | _ => ReadM.fail .noEntry start token

/-- Read the entries of a mapping in block style. -/
def readBlockMapping : (fuel : Nat) → (start : Nat) → ReadM (List (Node × Node))
  | 0, _ => return []
  | fuel + 1, start => do
      let token ← ReadM.peek
      match token.kind with
      | .key =>
          ReadM.advance
          let next ← ReadM.peek
          let key ←
            if endsBlockEntry next.kind then pure (emptyNode token.line)
            else readNode fuel true true
          let colon ← ReadM.peek
          let value ←
            if colon.kind == .value then do
              ReadM.advance
              let next ← ReadM.peek
              if endsBlockEntry next.kind then pure (emptyNode colon.line)
              else readNode fuel true true
            else
              pure (emptyNode colon.line)
          return (key, value) :: (← readBlockMapping fuel start)
      | .blockEnd =>
          ReadM.advance
          return []
      | _ => ReadM.fail .noKey start token

/--
Read the entries of a sequence in brackets; a lone pair is a mapping of its own.
-/
def readFlowSequence :
    (fuel : Nat) → (start : Nat) → (first : Bool) → ReadM (List Node)
  | 0, _, _ => return []
  | fuel + 1, start, first => do
      let token ← ReadM.peek
      let token ←
        if first || token.kind == .flowSequenceEnd then pure token
        else if token.kind == .flowEntry then do
          ReadM.advance
          ReadM.peek
        else
          ReadM.fail .noSequenceEnd start token
      match token.kind with
      | .flowSequenceEnd =>
          ReadM.advance
          return []
      | .key =>
          ReadM.advance
          let next ← ReadM.peek
          let key ←
            if next.kind == .value ||
              endsFlowEntry .flowSequenceEnd next.kind then do
              ReadM.advance
              pure (emptyNode next.line)
            else
              readNode fuel false false
          let value ← readFlowValue fuel .flowSequenceEnd
          return .mapping token.line "" [(key, value)] ::
            (← readFlowSequence fuel start false)
      | _ =>
          let item ← readNode fuel false false
          return item :: (← readFlowSequence fuel start false)

/--
Read the entries of a mapping in brackets; a key without a colon has no value.
-/
def readFlowMapping :
    (fuel : Nat) → (start : Nat) → (first : Bool) → ReadM (List (Node × Node))
  | 0, _, _ => return []
  | fuel + 1, start, first => do
      let token ← ReadM.peek
      let token ←
        if first || token.kind == .flowMappingEnd then pure token
        else if token.kind == .flowEntry then do
          ReadM.advance
          ReadM.peek
        else
          ReadM.fail .noMappingEnd start token
      match token.kind with
      | .flowMappingEnd =>
          ReadM.advance
          return []
      | .key =>
          ReadM.advance
          let next ← ReadM.peek
          let key ←
            if next.kind == .value ||
              endsFlowEntry .flowMappingEnd next.kind then
              pure (emptyNode next.line)
            else
              readNode fuel false false
          let value ← readFlowValue fuel .flowMappingEnd
          return (key, value) :: (← readFlowMapping fuel start false)
      | _ =>
          let key ← readNode fuel false false
          let next ← ReadM.peek
          return (key, emptyNode next.line) ::
            (← readFlowMapping fuel start false)

/-- Read the value of an entry in brackets, with the colon in front of it. -/
def readFlowValue : (fuel : Nat) → (closing : TokenKind) → ReadM Node
  | 0, _ => do throw (.token .depth 0 (← ReadM.peek).line)
  | fuel + 1, closing => do
      let colon ← ReadM.peek
      if colon.kind == .value then
        ReadM.advance
        let next ← ReadM.peek
        if endsFlowEntry closing next.kind then pure (emptyNode next.line)
        else readNode fuel false false
      else
        pure (emptyNode colon.line)

end

/-- The handles that some directives define; each may stand once. -/
def readDirectives :
    (fuel : Nat) → (versioned : Bool) → List (String × String) →
    ReadM (List (String × String))
  | 0, _, handles => return handles
  | fuel + 1, versioned, handles => do
      let token ← ReadM.peek
      match token.kind with
      | .directive (.version major minor) =>
          if versioned then
            ReadM.fail .repeatedVersion 0 token
          else if major ≠ 1 ∨ minor ≠ 1 then
            ReadM.fail .incompatibleVersion 0 token
          else
            ReadM.advance
            readDirectives fuel true handles
      | .directive (.handle name replacement) =>
          if (handles.lookup name).isSome then
            ReadM.fail .repeatedHandle 0 token
          else
            ReadM.advance
            readDirectives fuel versioned (handles ++ [(name, replacement)])
      | _ => return handles

/-- Whether a token shows that a document has no content. -/
def endsDocument : TokenKind → Bool
  | .directive _ | .documentStart | .documentEnd | .finish => true
  | _ => false

/-- Read the first document, if there is one. -/
def readDocument (fuel : Nat) : ReadM (Option Node) := do
  let token ← ReadM.peek
  match token.kind with
  | .finish => return none
  | .directive _ | .documentStart =>
      let handles ← readDirectives fuel false []
      modify fun reading =>
        { reading with handles := handles ++ standardHandles }
      let token ← ReadM.peek
      if token.kind != .documentStart then
        ReadM.fail .noDocumentStart 0 token
      else
        ReadM.advance
        let next ← ReadM.peek
        let node ←
          if endsDocument next.kind then
            pure (emptyNode next.line)
          else
            readNode fuel true false
        let _ ← ReadM.peek
        return some node
  | _ =>
      modify fun reading => { reading with handles := standardHandles }
      let node ← readNode fuel true false
      let _ ← ReadM.peek
      return some node

/--
The first document of a text, if there is one.  Every step of reading takes a
token, and a character gives three tokens at most, so the fuel suffices.
-/
def Node.ofText? (text : List Char) : Except Fault (Option Node) := do
  let size := text.length
  let (node?, _) ← (readDocument (8 * size + 64)).run
      { tokens := { cursor := ⟨text, {}⟩, size } }
  return node?

end Asm24.Yaml
