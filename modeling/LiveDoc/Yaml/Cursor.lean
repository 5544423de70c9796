import LiveDoc.Yaml.Token

/-!
# Moving through YAML text

A cursor is a place in a text with the characters that follow. Lexers move it and fail at marks;
past the end every character is the end mark.
-/

namespace LiveDoc.Yaml

/-- A place in a text and what follows it. An escape can write half of a pair of surrogates on its own,
which is no character; `half` stands for it. -/
structure Cursor where
  rest : List Char
  mark : Mark
  half : Char := '\uFFFD'
deriving Repr, Inhabited

/-- The place after a character, `next` being the one behind it. A carriage return before a line
feed ends no line, and a byte order mark takes no column. -/
def Mark.after (m : Mark) (c next : Char) : Mark :=
  if c = '\n' ∨ c = '\u0085' ∨ c = '\u2028' ∨ c = '\u2029' ∨ (c = '\r' ∧ next ≠ '\n') then
    { index := m.index + 1, line := m.line + 1, column := 0 }
  else if c = '\uFEFF' then { m with index := m.index + 1 }
  else { m with index := m.index + 1, column := m.column + 1 }

namespace Cursor

/-- The character `k` places ahead. -/
def peek (c : Cursor) (k : Nat := 0) : Char := c.rest.getD k endOfText

/-- The cursor behind the next character. -/
def next (c : Cursor) : Cursor :=
  match c.rest with
  | [] => c
  | ch :: rest => { c with rest := rest, mark := c.mark.after ch (rest.headD endOfText) }

/-- The cursor behind the next `n` characters. -/
def skip (c : Cursor) : Nat → Cursor
  | 0 => c
  | n + 1 => c.next.skip n

/-- The cursor behind the characters that satisfy a test. -/
def skipWhile (c : Cursor) (p : Char → Bool) : Cursor := c.skip (c.rest.takeWhile p).length

/-- The characters ahead that satisfy a test. -/
def takeWhile (c : Cursor) (p : Char → Bool) : List Char := c.rest.takeWhile p

/-- The line break ahead as it counts in a scalar, if there is one, and the cursor behind it. -/
def lineBreak (c : Cursor) : Option Char × Cursor :=
  match c.rest with
  | '\r' :: '\n' :: _ => (some '\n', c.skip 2)
  | ch :: _ =>
    if ch = '\r' ∨ ch = '\n' ∨ ch = '\u0085' then (some '\n', c.next)
    else if ch = '\u2028' ∨ ch = '\u2029' then (some ch, c.next)
    else (none, c)
  | [] => (none, c)

/-- The cursor behind blanks and a comment, up to the end of the line. -/
def skipComment (c : Cursor) : Cursor :=
  if c.peek = '#' then c.skipWhile (!isBreakOrEnd ·) else c

/-- Whether a document marker of three such characters stands ahead. -/
def atMarker (c : Cursor) (mark : Char) : Bool :=
  c.rest.take 3 == [mark, mark, mark] && isSpaceOrEnd (c.peek 3)

/-- Whether any document marker stands ahead. -/
def atSeparator (c : Cursor) : Bool := c.atMarker '-' || c.atMarker '.'

end Cursor

/-- A fault found at a cursor while something that began at a mark was being read. -/
def failWithin {α : Type} (context : Context) (start : Mark) (problem : Problem) (c : Cursor) :
    Except Halt α :=
  .error (.malformed (.within context start problem c.mark))

/-- A fault found at a cursor. -/
def failAt {α : Type} (problem : Problem) (c : Cursor) : Except Halt α :=
  .error (.malformed (.plain problem c.mark))

end LiveDoc.Yaml
