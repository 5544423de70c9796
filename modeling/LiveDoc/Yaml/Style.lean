import LiveDoc.Yaml.Schema
import LiveDoc.Text.Literal

/-!
# Styles of scalars

A text is written plain where that reads back as the same value, else between single quotes, else
between double quotes with escapes. Lines longer than the best width are folded at single spaces.
The lines of a scalar are given without the indentation of those after the first.
-/

namespace LiveDoc.Yaml

/-- The lines of a piece of output, of which there is at least one. -/
structure Lines where
  first : List Char
  rest : List (List Char) := []
deriving Repr

namespace Lines

/-- Text in front of the first line. -/
def lead (cs : List Char) (l : Lines) : Lines := { l with first := cs ++ l.first }

/-- Text in front of lines that get a line of their own. -/
def below (cs : List Char) (l : Lines) : Lines := ⟨cs, l.first :: l.rest⟩

/-- Text behind the last line. -/
def close (cs : List Char) (l : Lines) : Lines :=
  match l.rest.getLast? with
  | none => { l with first := l.first ++ cs }
  | some last => { l with rest := l.rest.dropLast ++ [last ++ cs] }

/-- All lines. -/
def toList (l : Lines) : List (List Char) := l.first :: l.rest

end Lines

/-- The ways to write a scalar. -/
inductive Style where
  | plain
  | single
  | double
  | literal
deriving DecidableEq, Repr

namespace Style

/-- The column beyond which lines are folded. -/
def bestWidth : Nat := 80

/-- Whether a character ends a line that a scalar may hold. -/
def isLineEnd (c : Char) : Bool := c == '\n' || c == '\u0085' || c == '\u2028' || c == '\u2029'

/-- Whether a character needs double quotes. -/
def isSpecial (c : Char) : Bool := c != '\n' && !(' ' ≤ c && c ≤ '~')

/-- Whether a character separates an indicator from text. -/
def isGap (c : Char) : Bool := c == '\x00' || c == ' ' || c == '\t' || c == '\r' || isLineEnd c

/-- Whether a text is empty or starts with a gap. -/
def opensGap (cs : List Char) : Bool := match cs with
  | [] => true
  | c :: _ => isGap c

/-- Whether two characters that satisfy tests stand side by side. -/
def adjoin (p q : Char → Bool) : List Char → Bool
  | a :: b :: rest => (p a && q b) || adjoin p q (b :: rest)
  | _ => false

/-- Whether a colon or a comment within a text would be taken for an indicator; `after` tells
whether a gap comes before the text. -/
def indicatesWithin (after : Bool) : List Char → Bool
  | [] => false
  | c :: cs =>
    (c == ':' && opensGap cs) || (c == '#' && after) || indicatesWithin (isGap c) cs

/-- Whether a text would be taken for something else if it were written plain in a block. -/
def indicates (cs : List Char) : Bool :=
  match cs with
  | [] => false
  | c :: rest =>
    cs.take 3 == "---".toList || cs.take 3 == "...".toList ||
      "#,[]\x7b\x7d&*!|>'\"%@\x60".toList.contains c ||
      ((c == '?' || c == ':' || c == '-') && opensGap rest) || indicatesWithin (isGap c) rest

/-- Whether a text may stand between single quotes. -/
def allowsSingle (cs : List Char) : Bool :=
  !(cs.any isSpecial || adjoin isLineEnd (· == ' ') cs || adjoin (· == ' ') isLineEnd cs)

/-- Whether a text spans lines. -/
def isMultiline (cs : List Char) : Bool := cs.any isLineEnd

/-- Whether a text that is not empty may be written plain in a block. -/
def allowsPlain (cs : List Char) : Bool :=
  allowsSingle cs && !isMultiline cs && !indicates cs && cs.head? != some ' ' &&
    cs.getLast? != some ' '

/-- The style of a text with a tag; a key has to stay on one line. -/
def choose (tag : String) (text : String) (inKey : Bool) : Style :=
  let cs := text.toList
  if tag = Schema.tag "binary" then (if inKey || cs.isEmpty then .double else .literal)
  else if Schema.tagOf text = tag && !(inKey && (cs.isEmpty || isMultiline cs)) &&
      allowsPlain cs then
    .plain
  else if allowsSingle cs && !(inKey && isMultiline cs) then .single
  else .double

/-- Whether a line may be folded at a character: it is a space on its own within the text, beyond
the best width. -/
def foldsAt (split afterSpace : Bool) (column : Nat) (c : Char) (cs : List Char) : Bool :=
  split && c == ' ' && !afterSpace && !cs.isEmpty && cs.head? != some ' ' && bestWidth < column

/-- The lines of a plain text from a column on, folded at a margin. -/
def plainLines (split : Bool) (margin : Nat) : Nat → Bool → List Char → Lines
  | _, _, [] => ⟨[], []⟩
  | column, afterSpace, c :: cs =>
    if foldsAt split afterSpace column c cs then
      (plainLines split margin margin true cs).below []
    else (plainLines split margin (column + 1) (c == ' ') cs).lead [c]

/-- The lines of a text between single quotes. A quote is written twice, and a line break as an
empty line more. -/
def singleLines (split : Bool) (margin : Nat) : Nat → Bool → List Char → Lines
  | _, _, [] => ⟨[], []⟩
  | column, afterSpace, c :: cs =>
    if c = '\n' then
      let next := singleLines split margin margin false cs
      if cs.head? = some '\n' then ⟨[], [] :: next.rest⟩ else ⟨[], [] :: next.first :: next.rest⟩
    else if foldsAt split afterSpace column c cs then
      (singleLines split margin margin true cs).below []
    else if c = '\'' then (singleLines split margin (column + 2) false cs).lead ['\'', '\'']
    else (singleLines split margin (column + 1) (c == ' ') cs).lead [c]

/-- The letters of the escapes that have one. -/
def escapeLetters : List (Char × Char) :=
  [ ('\x00', '0'), ('\x07', 'a'), ('\x08', 'b'), ('\t', 't'), ('\n', 'n'), ('\x0b', 'v'),
    ('\x0c', 'f'), ('\r', 'r'), ('\x1b', 'e'), ('"', '"'), ('\\', '\\'), ('\u0085', 'N'),
    ('\u00a0', '_'), ('\u2028', 'L'), ('\u2029', 'P') ]

/-- A code in capital hexadecimal digits. -/
def code (width : Nat) (c : Char) : List Char := (Text.hex width c.toNat).map Char.toUpper

/-- The escape of a character, if it needs one. -/
def escape? (c : Char) : Option (List Char) :=
  match escapeLetters.lookup c with
  | some d => some ['\\', d]
  | none =>
    if ' ' ≤ c ∧ c ≤ '~' then none
    else if c.toNat < 0x100 then some ('\\' :: 'x' :: code 2 c)
    else if c.toNat < 0x10000 then some ('\\' :: 'u' :: code 4 c)
    else some ('\\' :: 'U' :: code 8 c)

/-- What keeps a space at the head of a folded line. -/
def guard (cs : List Char) : List Char := if cs.head? = some ' ' then ['\\'] else []

/-- The lines of a text between double quotes. A line is folded at a space or next to an escape.
`inner` tells whether the text goes on before the head, and `pending` holds, last character first,
the characters since the last escape or fold, which start at the column. -/
def doubleLines (split : Bool) (margin : Nat) :
    Bool → Nat → List Char → List Char → Lines
  | _, _, pending, [] => ⟨pending.reverse, []⟩
  | inner, column, pending, c :: cs =>
    let foldable := split && inner && !cs.isEmpty
    match escape? c with
    | some e =>
      let written := pending.reverse ++ e
      let after := column + written.length
      if foldable && bestWidth + 1 < after then
        let guards := guard cs
        ((doubleLines split margin true (margin + guards.length) [] cs).lead guards).below
          (written ++ ['\\'])
      else (doubleLines split margin true after [] cs).lead written
    | none =>
      if foldable && (c == ' ' || pending.isEmpty) && bestWidth < column + pending.length then
        let guards := guard [c]
        ((doubleLines split margin true (margin + guards.length) [c] cs).lead guards).below
          (pending.reverse ++ ['\\'])
      else doubleLines split margin true column (c :: pending) cs

/-- The lines of a text of whole lines. -/
def literalLines (cs : List Char) : List (List Char) := (Text.splitAt '\n' cs).dropLast

/-- The lines of a text in a style, from a column on. -/
def lines (style : Style) (split : Bool) (column margin : Nat) (cs : List Char) : Lines :=
  match style with
  | .plain => plainLines split margin column true cs
  | .single =>
    ((singleLines split margin (column + 1) true cs).close ['\'']).lead ['\'']
  | .double =>
    ((doubleLines split margin false (column + 1) [] cs).close ['"']).lead ['"']
  | .literal => ⟨['|'], literalLines cs⟩

end Style

end LiveDoc.Yaml
