/-!
# Faults of JSON text

A fault stands at a position, counted in characters; lines end at line feeds only.
-/

namespace LiveDoc.Json

/-- Why a text is not JSON. -/
inductive Reason where
  | value
  | propertyName
  | colon
  | comma
  | extraData
  | unicodeEscape
  | control
  | byteOrderMark
  | unterminated
  | escape
deriving DecidableEq, Repr

/-- The reason in words. -/
def Reason.text : Reason → String
  | .value => "Expecting value"
  | .propertyName => "Expecting property name enclosed in double quotes"
  | .colon => "Expecting ':' delimiter"
  | .comma => "Expecting ',' delimiter"
  | .extraData => "Extra data"
  | .unicodeEscape => "Invalid \\uXXXX escape"
  | .control => "Invalid control character at"
  | .byteOrderMark => "Unexpected UTF-8 BOM (decode using utf-8-sig)"
  | .unterminated => "Unterminated string starting at"
  | .escape => "Invalid \\escape"

/-- Line and column of a position, both from 1. -/
def lineColumn (cs : List Char) (position : Nat) : Nat × Nat :=
  let before := cs.take position
  (before.count '\n' + 1, (before.reverse.takeWhile (· != '\n')).length + 1)

/-- Line and column of a place that need not be in the text. A negative one counts from the end. -/
def place (cs : List Char) (position : Int) : Nat × Int :=
  let before := cs.take (if position < 0 then cs.length + position else position).toNat
  let line := before.reverse.takeWhile (· != '\n')
  (before.count '\n' + 1, position - (before.length - line.length - 1))

end LiveDoc.Json
