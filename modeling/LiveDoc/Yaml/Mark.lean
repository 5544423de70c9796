/-!
# Places in YAML text

A mark is a position with its line and column. In a message it is shown with an excerpt of its line
and a caret below the character it stands at.
-/

namespace LiveDoc.Yaml

/-- A place in a text: the count of characters before it, and its line and column from 0. -/
structure Mark where
  index : Nat := 0
  line : Nat := 0
  column : Nat := 0
deriving DecidableEq, Repr, Inhabited

/-- The character that stands for the end of the text. -/
def endOfText : Char := '\x00'

/-- Whether a character ends a line. -/
def isBreak (c : Char) : Bool :=
  c == '\r' || c == '\n' || c == '\u0085' || c == '\u2028' || c == '\u2029'

/-- Whether a character ends a line or the text. -/
def isBreakOrEnd (c : Char) : Bool := c == endOfText || isBreak c

/-- Whether a character is a blank or ends a line or the text. -/
def isSpaceOrEnd (c : Char) : Bool := c == ' ' || c == '\t' || isBreakOrEnd c

namespace Mark

/-- The most characters of a line that an excerpt shows on each side of a mark. -/
def halfExcerpt : Nat := 36

/-- The characters that an excerpt cuts off beside its dots. -/
def cut : Nat := 5

/-- The dots that stand for what an excerpt leaves out. -/
def dots : List Char := " ... ".toList

/-- The part of a line on one side of a mark, nearest character first; the flag tells whether some
of it is left out. -/
def side (line : List Char) : List Char × Bool :=
  if halfExcerpt < line.length then (line.take (halfExcerpt + 1 - cut), true) else (line, false)

/-- The excerpt of the line at a mark, with a caret below. -/
def excerpt (text : List Char) (m : Mark) : String :=
  let before := side ((text.take m.index).reverse.takeWhile (!isBreakOrEnd ·))
  let after := side ((text.drop m.index).takeWhile (!isBreakOrEnd ·))
  let head := if before.2 then dots else []
  let tail := if after.2 then dots else []
  let margin := List.replicate 4 ' '
  String.ofList (margin ++ head ++ before.1.reverse ++ after.1 ++ tail ++ ['\n'] ++ margin ++
    List.replicate (before.1.length + head.length) ' ' ++ ['^'])

/-- The place in words, with its excerpt. -/
def describe (text : List Char) (m : Mark) : String :=
  "  in \"<unicode string>\", line " ++ toString (m.line + 1) ++ ", column " ++
    toString (m.column + 1) ++ ":\n" ++ excerpt text m

end Mark

end LiveDoc.Yaml
