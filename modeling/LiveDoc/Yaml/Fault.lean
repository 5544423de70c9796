import LiveDoc.Yaml.Mark
import LiveDoc.Text.Encoding

/-!
# Faults of YAML text

A fault says what was being read, if that helps, and what is wrong; each part has a place. The words
of every fault stand here.
-/

namespace LiveDoc.Yaml

/-- What was being read when a fault was found. -/
inductive Context where
  | simpleKey
  | nextToken
  | directive
  | alias
  | anchor
  | tag
  | tagSyntax
  | directiveSyntax
  | blockScalar
  | doubleQuoted
  | quoted
  | node
  | blockNode
  | flowNode
  | blockCollection
  | blockMapping
  | flowSequence
  | flowMapping
  | singleDocument
  | duplicateAnchor (name : String)
  | mapping
  | orderedMap
  | pairs
deriving DecidableEq, Repr

/-- The context in words. -/
def Context.text : Context → String
  | .simpleKey => "while scanning a simple key"
  | .nextToken => "while scanning for the next token"
  | .directive => "while scanning a directive"
  | .alias => "while scanning an alias"
  | .anchor => "while scanning an anchor"
  | .tag => "while scanning a tag"
  | .tagSyntax => "while parsing a tag"
  | .directiveSyntax => "while parsing a directive"
  | .blockScalar => "while scanning a block scalar"
  | .doubleQuoted => "while scanning a double-quoted scalar"
  | .quoted => "while scanning a quoted scalar"
  | .node => "while parsing a node"
  | .blockNode => "while parsing a block node"
  | .flowNode => "while parsing a flow node"
  | .blockCollection => "while parsing a block collection"
  | .blockMapping => "while parsing a block mapping"
  | .flowSequence => "while parsing a flow sequence"
  | .flowMapping => "while parsing a flow mapping"
  | .singleDocument => "expected a single document in the stream"
  | .duplicateAnchor name => "found duplicate anchor " ++ Text.literal name ++ "; first occurrence"
  | .mapping => "while constructing a mapping"
  | .orderedMap => "while constructing an ordered map"
  | .pairs => "while constructing pairs"

/-- What is wrong. A character or token that was found instead of another one is part of it. -/
inductive Problem where
  | missingColon
  | sequenceEntryNotAllowed
  | mappingKeyNotAllowed
  | mappingValueNotAllowed
  | cannotStartToken (c : Char)
  | expectedName (c : Char)
  | expectedDigitOrDot (c : Char)
  | expectedDigitOrSpace (c : Char)
  | expectedDigit (c : Char)
  | expectedSpace (c : Char)
  | expectedCommentOrBreak (c : Char)
  | expectedTagEnd (c : Char)
  | expectedBang (c : Char)
  | expectedUri (c : Char)
  | expectedUriEscape (c : Char)
  | undecodableUri (fault : DecodeFault)
  | zeroIndentation
  | expectedIndicators (c : Char)
  | expectedHexDigits (count : Nat) (c : Char)
  | unknownEscape (c : Char)
  | endOfStream
  | documentSeparator
  | expectedDocumentStart (token : String)
  | duplicateVersion
  | incompatibleVersion
  | duplicateHandle (handle : String)
  | undefinedHandle (handle : String)
  | expectedContent (token : String)
  | expectedBlockEnd (token : String)
  | expectedSequenceEnd (token : String)
  | expectedMappingEnd (token : String)
  | anotherDocument
  | undefinedAlias (name : String)
  | secondOccurrence
  | expectedScalar (kind : String)
  | expectedSequence (kind : String)
  | expectedMapping (kind : String)
  | expectedMerge (kind : String)
  | expectedMergeList (kind : String)
  | expectedSequenceOnly (kind : String)
  | expectedSingleMapping (kind : String)
  | expectedSingleItem (count : Nat)
  | unhashableKey
  | undecodableBase64 (reason : String)
  | notAsciiBase64 (reason : String)
  | unknownTag (tag : String)
deriving DecidableEq, Repr

/-- A character as a quoted text. -/
def quotedChar (c : Char) : String := Text.literal (String.ofList [c])

/-- The problem in words. -/
def Problem.text : Problem → String
  | .missingColon => "could not find expected ':'"
  | .sequenceEntryNotAllowed => "sequence entries are not allowed here"
  | .mappingKeyNotAllowed => "mapping keys are not allowed here"
  | .mappingValueNotAllowed => "mapping values are not allowed here"
  | .cannotStartToken c => "found character " ++ quotedChar c ++ " that cannot start any token"
  | .expectedName c => "expected alphabetic or numeric character, but found " ++ quotedChar c
  | .expectedDigitOrDot c => "expected a digit or '.', but found " ++ quotedChar c
  | .expectedDigitOrSpace c => "expected a digit or ' ', but found " ++ quotedChar c
  | .expectedDigit c => "expected a digit, but found " ++ quotedChar c
  | .expectedSpace c => "expected ' ', but found " ++ quotedChar c
  | .expectedCommentOrBreak c => "expected a comment or a line break, but found " ++ quotedChar c
  | .expectedTagEnd c => "expected '>', but found " ++ quotedChar c
  | .expectedBang c => "expected '!', but found " ++ quotedChar c
  | .expectedUri c => "expected URI, but found " ++ quotedChar c
  | .expectedUriEscape c =>
    "expected URI escape sequence of 2 hexadecimal numbers, but found " ++ quotedChar c
  | .undecodableUri f => f.message
  | .zeroIndentation => "expected indentation indicator in the range 1-9, but found 0"
  | .expectedIndicators c =>
    "expected chomping or indentation indicators, but found " ++ quotedChar c
  | .expectedHexDigits n c =>
    "expected escape sequence of " ++ toString n ++ " hexadecimal numbers, but found " ++
      quotedChar c
  | .unknownEscape c => "found unknown escape character " ++ quotedChar c
  | .endOfStream => "found unexpected end of stream"
  | .documentSeparator => "found unexpected document separator"
  | .expectedDocumentStart t => "expected '<document start>', but found " ++ Text.literal t
  | .duplicateVersion => "found duplicate YAML directive"
  | .incompatibleVersion => "found incompatible YAML document (version 1.* is required)"
  | .duplicateHandle h => "duplicate tag handle " ++ Text.literal h
  | .undefinedHandle h => "found undefined tag handle " ++ Text.literal h
  | .expectedContent t => "expected the node content, but found " ++ Text.literal t
  | .expectedBlockEnd t => "expected <block end>, but found " ++ Text.literal t
  | .expectedSequenceEnd t => "expected ',' or ']', but got " ++ Text.literal t
  | .expectedMappingEnd t => "expected ',' or '\x7d', but got " ++ Text.literal t
  | .anotherDocument => "but found another document"
  | .undefinedAlias name => "found undefined alias " ++ Text.literal name
  | .secondOccurrence => "second occurrence"
  | .expectedScalar kind => "expected a scalar node, but found " ++ kind
  | .expectedSequence kind => "expected a sequence node, but found " ++ kind
  | .expectedMapping kind => "expected a mapping node, but found " ++ kind
  | .expectedMerge kind => "expected a mapping or list of mappings for merging, but found " ++ kind
  | .expectedMergeList kind => "expected a mapping for merging, but found " ++ kind
  | .expectedSequenceOnly kind => "expected a sequence, but found " ++ kind
  | .expectedSingleMapping kind => "expected a mapping of length 1, but found " ++ kind
  | .expectedSingleItem n => "expected a single mapping item, but found " ++ toString n ++ " items"
  | .unhashableKey => "found unhashable key"
  | .undecodableBase64 reason => "failed to decode base64 data: " ++ reason
  | .notAsciiBase64 reason => "failed to convert base64 data into ascii: " ++ reason
  | .unknownTag tag => "could not determine a constructor for the tag " ++ Text.literal tag

/-- Why a text is no YAML document that can be built. -/
inductive Fault where
  | unacceptable (c : Char) (position : Nat)
  | marked (context : Option (Context × Option Mark)) (problem : Problem) (mark : Mark)
deriving DecidableEq, Repr

namespace Fault

/-- A problem without context. -/
def plain (problem : Problem) (mark : Mark) : Fault := .marked none problem mark

/-- A problem found while something that began at a mark was being read. -/
def within (context : Context) (start : Mark) (problem : Problem) (mark : Mark) : Fault :=
  .marked (some (context, some start)) problem mark

/-- The place of a fault, if it has a line. -/
def mark? : Fault → Option Mark
  | .unacceptable .. => none
  | .marked _ _ m => some m

/-- The lines on the context; its place is left out where it is the place of the problem. -/
def contextLines (text : List Char) (mark : Mark) : Option (Context × Option Mark) → List String
  | none => []
  | some (c, none) => [c.text]
  | some (c, some m) =>
    if m.line = mark.line ∧ m.column = mark.column then [c.text] else [c.text, m.describe text]

/-- The fault in words, with excerpts of the text. -/
def message (text : List Char) : Fault → String
  | .unacceptable c position =>
    "unacceptable character #x" ++ String.ofList (Text.hex 4 c.toNat) ++
      ": special characters are not allowed\n  in \"<unicode string>\", position " ++
      toString position
  | .marked context problem mark =>
    "\n".intercalate (contextLines text mark context ++ [problem.text, mark.describe text])

end Fault

end LiveDoc.Yaml
