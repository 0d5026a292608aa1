/-!
# Faults in documents

Why a document cannot be read.  A fault of encoding has no place.  A fault in
the tokens or in their arrangement has the line where the broken construct
starts and the line where it was noticed.  The first of them that is not the
first line of the document is reported; a fault with both on the first line is
reported without a line.  Faults of meaning are about values and name what they
concern.
-/

namespace Asm24.Yaml

/-- What is wrong with the bytes of a document. -/
inductive EncodingProblem where
  | invalidLead
  | incompleteSequence
  | invalidTrail
  | invalidLength
  | invalidCharacter
  | incompleteUnit
  | unexpectedLowSurrogate
  | incompletePair
  | missingLowSurrogate
  | controlCharacter
  deriving DecidableEq, Repr

/-- The text of a problem. -/
def EncodingProblem.message : EncodingProblem → String
  | .invalidLead => "invalid leading UTF-8 octet"
  | .incompleteSequence => "incomplete UTF-8 octet sequence"
  | .invalidTrail => "invalid trailing UTF-8 octet"
  | .invalidLength => "invalid length of a UTF-8 sequence"
  | .invalidCharacter => "invalid Unicode character"
  | .incompleteUnit => "incomplete UTF-16 character"
  | .unexpectedLowSurrogate => "unexpected low surrogate area"
  | .incompletePair => "incomplete UTF-16 surrogate pair"
  | .missingLowSurrogate => "expected low surrogate area"
  | .controlCharacter => "control characters are not allowed"

/-- What is wrong with the characters of a token. -/
inductive TokenProblem where
  | noToken
  | keyWithoutValue
  | depth
  | valueNotAllowed
  | keyNotAllowed
  | entryNotAllowed
  | noDirectiveName
  | badDirectiveName
  | unknownDirective
  | noVersion
  | noVersionPoint
  | longVersion
  | noBlank
  | noBlankOrBreak
  | noCommentOrBreak
  | noAnchorName
  | noTagMark
  | noTagSuffix
  | noTagClose
  | noEscapedOctet
  | badEscapedLead
  | badEscapedTrail
  | zeroIndentation
  | tabInIndentation
  | tabBeforePlain
  | documentMarkInQuotes
  | endInQuotes
  | unknownEscape
  | noEscapeDigit
  | invalidEscapeCode
  deriving DecidableEq, Repr

/-- The text of a problem. -/
def TokenProblem.message : TokenProblem → String
  | .noToken => "found character that cannot start any token"
  | .keyWithoutValue => "could not find expected ':'"
  | .depth => "exceeded max depth of 10000"
  | .valueNotAllowed => "mapping values are not allowed in this context"
  | .keyNotAllowed => "mapping keys are not allowed in this context"
  | .entryNotAllowed => "block sequence entries are not allowed in this context"
  | .noDirectiveName => "could not find expected directive name"
  | .badDirectiveName => "found unexpected non-alphabetical character"
  | .unknownDirective => "found unknown directive name"
  | .noVersion => "did not find expected version number"
  | .noVersionPoint => "did not find expected digit or '.' character"
  | .longVersion => "found extremely long version number"
  | .noBlank => "did not find expected whitespace"
  | .noBlankOrBreak => "did not find expected whitespace or line break"
  | .noCommentOrBreak => "did not find expected comment or line break"
  | .noAnchorName => "did not find expected alphabetic or numeric character"
  | .noTagMark => "did not find expected '!'"
  | .noTagSuffix => "did not find expected tag URI"
  | .noTagClose => "did not find the expected '>'"
  | .noEscapedOctet => "did not find URI escaped octet"
  | .badEscapedLead => "found an incorrect leading UTF-8 octet"
  | .badEscapedTrail => "found an incorrect trailing UTF-8 octet"
  | .zeroIndentation => "found an indentation indicator equal to 0"
  | .tabInIndentation =>
      "found a tab character where an indentation space is expected"
  | .tabBeforePlain => "found a tab character that violates indentation"
  | .documentMarkInQuotes => "found unexpected document indicator"
  | .endInQuotes => "found unexpected end of stream"
  | .unknownEscape => "found unknown escape character"
  | .noEscapeDigit => "did not find expected hexdecimal number"
  | .invalidEscapeCode => "found invalid Unicode character escape code"

/-- What is wrong with the arrangement of tokens. -/
inductive StructureProblem where
  | noDocumentStart
  | noNode
  | noKey
  | noEntry
  | noSequenceEnd
  | noMappingEnd
  | undefinedHandle
  | repeatedVersion
  | incompatibleVersion
  | repeatedHandle
  deriving DecidableEq, Repr

/-- The text of a problem. -/
def StructureProblem.message : StructureProblem → String
  | .noDocumentStart => "did not find expected <document start>"
  | .noNode => "did not find expected node content"
  | .noKey => "did not find expected key"
  | .noEntry => "did not find expected '-' indicator"
  | .noSequenceEnd => "did not find expected ',' or ']'"
  | .noMappingEnd => "did not find expected ',' or '\x7d'"
  | .undefinedHandle => "found undefined tag handle"
  | .repeatedVersion => "found duplicate %YAML directive"
  | .incompatibleVersion => "found incompatible YAML document"
  | .repeatedHandle => "found duplicate %TAG directive"

/-- What is wrong with the values of a document. -/
inductive MeaningProblem where
  | unknownAnchor (name : String)
  | containsItself (name : String)
  | excessiveAliases
  | mergeOfNoMapping
  | invalidKey (shown : String)
  | invalidBase64
  | wrongTag (found text wanted : String)
  deriving DecidableEq, Repr

/-- The text of a problem. -/
def MeaningProblem.message : MeaningProblem → String
  | .unknownAnchor name => "unknown anchor '" ++ name ++ "' referenced"
  | .containsItself name => "anchor '" ++ name ++ "' value contains itself"
  | .excessiveAliases => "document contains excessive aliasing"
  | .mergeOfNoMapping =>
      "map merge requires map or sequence of maps as the value"
  | .invalidKey shown => "invalid map key: " ++ shown
  | .invalidBase64 => "!!binary value contains invalid base64 data"
  | .wrongTag found text wanted =>
      "cannot decode " ++ found ++ " `" ++ text ++ "` as a " ++ wanted

/-- A fault in a document.  Lines are counted from zero. -/
inductive Fault where
  | encoding (problem : EncodingProblem)
  | token (problem : TokenProblem) (start noticed : Nat)
  | arrangement (problem : StructureProblem) (start noticed : Nat)
  | meaning (problem : MeaningProblem)
  /--
  Values that do not have the form that is asked for, each with its description.
  -/
  | forms (descriptions : List String)
  deriving DecidableEq, Repr

namespace Fault

/--
The line that is reported for two places: the first that is not the first line.
-/
def line? (start noticed : Nat) : Option Nat :=
  if start ≠ 0 then some start else if noticed ≠ 0 then some noticed else none

/-- A text with the number of a line in front. -/
def located (number? : Option Nat) (text : String) : String :=
  match number? with
  | some number => "line " ++ toString number ++ ": " ++ text
  | none => text

/--
The text of a fault.  Tokens are located by the line they stand on, and
arrangements by the line before.
-/
def message (fault : Fault) : String :=
  "yaml: " ++
    match fault with
    | .encoding problem => problem.message
    | .token problem start noticed =>
        located ((line? start noticed).map (· + 1)) problem.message
    | .arrangement problem start noticed =>
        located (line? start noticed) problem.message
    | .meaning problem => problem.message
    | .forms descriptions =>
        "unmarshal errors:\n  " ++ "\n  ".intercalate descriptions

end Fault

end Asm24.Yaml
