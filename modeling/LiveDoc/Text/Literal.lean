import LiveDoc.Text.Printable

/-!
# Quoted texts and byte strings

A literal stands in single quotes, or in double quotes if it holds a single quote and no double one.
The quote in use and the backslash are escaped, as is every character that is not printable.
-/

namespace LiveDoc.Text

/-- A number in lower-case hexadecimal with at least `width` digits. -/
def hex (width n : Nat) : List Char :=
  let ds := Nat.toDigits 16 n
  List.replicate (width - ds.length) '0' ++ ds

/-- The quote that a literal of these characters stands in. -/
def quoteFor (cs : List Char) : Char := if cs.contains '\'' && !cs.contains '"' then '"' else '\''

/-- A character as it stands in a literal. -/
def escapeChar (quote c : Char) : List Char :=
  if c = quote ∨ c = '\\' then ['\\', c]
  else if c = '\n' then ['\\', 'n']
  else if c = '\r' then ['\\', 'r']
  else if c = '\t' then ['\\', 't']
  else if isPrintable c then [c]
  else if c.toNat < 256 then '\\' :: 'x' :: hex 2 c.toNat
  else if c.toNat < 65536 then '\\' :: 'u' :: hex 4 c.toNat
  else '\\' :: 'U' :: hex 8 c.toNat

/-- A text as a literal. -/
def literal (s : String) : String :=
  let cs := s.toList
  let quote := quoteFor cs
  String.ofList (quote :: cs.flatMap (escapeChar quote) ++ [quote])

/-- A byte as it stands in a literal: ASCII as in a text, and any other byte in hexadecimal. -/
def escapeByte (quote : Char) (b : UInt8) : List Char :=
  if b < 128 then escapeChar quote (Char.ofNat b.toNat) else '\\' :: 'x' :: hex 2 b.toNat

/-- A byte string as a literal. -/
def bytesLiteral (bs : List UInt8) : String :=
  let quote := quoteFor (bs.map fun b => Char.ofNat b.toNat)
  "b" ++ String.ofList (quote :: bs.flatMap (escapeByte quote) ++ [quote])

end LiveDoc.Text
