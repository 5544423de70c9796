import LiveDoc.Failure

/-!
# Tokens

The tokens of YAML text, with the places where they start and stop. Block structure is in them: the
indentation of the text has become start and end tokens.
-/

namespace LiveDoc.Yaml

/-- What a token says. -/
inductive TokenKind where
  | streamStart
  | streamEnd
  | version (major minor : Nat)
  | tagHandle (handle lead : String)
  | otherDirective (name : String)
  | documentStart
  | documentEnd
  | blockSequenceStart
  | blockMappingStart
  | blockEnd
  | flowSequenceStart
  | flowSequenceEnd
  | flowMappingStart
  | flowMappingEnd
  | key
  | value
  | blockEntry
  | flowEntry
  | alias (name : String)
  | anchor (name : String)
  | tag (handle : Option String) (suffix : String)
  | scalar (text : String) (plain : Bool)
deriving DecidableEq, Repr, Inhabited

/-- The name of a token in messages. -/
def TokenKind.name : TokenKind → String
  | .streamStart => "<stream start>"
  | .streamEnd => "<stream end>"
  | .version .. => "<directive>"
  | .tagHandle .. => "<directive>"
  | .otherDirective _ => "<directive>"
  | .documentStart => "<document start>"
  | .documentEnd => "<document end>"
  | .blockSequenceStart => "<block sequence start>"
  | .blockMappingStart => "<block mapping start>"
  | .blockEnd => "<block end>"
  | .flowSequenceStart => "["
  | .flowSequenceEnd => "]"
  | .flowMappingStart => "\x7b"
  | .flowMappingEnd => "\x7d"
  | .key => "?"
  | .value => ":"
  | .blockEntry => "-"
  | .flowEntry => ","
  | .alias _ => "<alias>"
  | .anchor _ => "<anchor>"
  | .tag .. => "<tag>"
  | .scalar .. => "<scalar>"

/-- Whether a token is a directive. -/
def TokenKind.isDirective : TokenKind → Bool
  | .version .. => true
  | .tagHandle .. => true
  | .otherDirective _ => true
  | _ => false

/-- A token and its place. -/
structure Token where
  kind : TokenKind
  start : Mark
  stop : Mark
deriving DecidableEq, Repr, Inhabited

/-- Why a stage of reading stops before its end: the text is malformed, or a value in it cannot be
built. -/
inductive Halt where
  | malformed (fault : Fault)
  | broken (fault : LiveDoc.Fault)
deriving DecidableEq

/-- What a stage of reading hands to the next one: its results in order, and why there are no more
of them if the stage stopped early. A later stage meets the halt only when it asks for more. -/
structure Stream (α : Type) where
  items : List α
  halt : Option Halt

end LiveDoc.Yaml
