import LiveDoc.Yaml.Lexeme

/-!
# Scalars

Block, quoted and plain scalars as they are written. Every form folds line breaks in its own way: a
single break between two lines of text becomes a space, and further breaks are kept.
-/

namespace LiveDoc.Yaml.Scalar

open Lexeme

/-- Whether a character is a space or a tabulator. -/
def isSpace (c : Char) : Bool := c == ' ' || c == '\t'

/-- What happens to the line breaks at the end of a block scalar: all but the first are dropped, all
are dropped, or all are kept. -/
inductive Chomping where
  | clip
  | strip
  | keep
deriving DecidableEq, Repr

/-- The chomping indicator ahead, if there is one. -/
def chomping? (c : Cursor) : Option Chomping × Cursor :=
  if c.peek = '+' then (some .keep, c.next)
  else if c.peek = '-' then (some .strip, c.next)
  else (none, c)

/-- The indentation indicator ahead, if there is one. -/
def increment? (start : Mark) (c : Cursor) : Except Halt (Option Nat × Cursor) :=
  if Text.isAsciiDigit c.peek then
    if c.peek = '0' then failWithin .blockScalar start .zeroIndentation c
    else .ok (some (c.peek.toNat - 48), c.next)
  else .ok (none, c)

/-- The indicators of a block scalar, in either order. -/
def indicators (start : Mark) (c : Cursor) : Except Halt ((Chomping × Option Nat) × Cursor) := do
  let (first, c) := chomping? c
  let (increment, c) ← increment? start c
  let (second, c) := if first.isSome then (first, c) else chomping? c
  if isBlankOrEnd c.peek then .ok ((second.getD .clip, increment), c)
  else failWithin .blockScalar start (.expectedIndicators c.peek) c

/-- The line breaks between two lines of a block scalar, the place behind the last of them, and the
cursor behind the indentation that follows. -/
structure Gap where
  breaks : List Char
  stop : Mark
  cursor : Cursor

/-- The cursor behind spaces up to a column. -/
def skipIndent (indent : Nat) (c : Cursor) : Cursor :=
  c.skip (min (indent - c.mark.column) (c.takeWhile (· == ' ')).length)

/-- The empty lines ahead, where the text is indented by a known count of spaces. -/
def gap (indent : Nat) : Nat → Mark → Cursor → Gap
  | 0, stop, c => ⟨[], stop, c⟩
  | fuel + 1, stop, c =>
    let c := skipIndent indent c
    match c.lineBreak with
    | (some b, after) =>
      let g := gap indent fuel after.mark after
      { g with breaks := b :: g.breaks }
    | (none, _) => ⟨[], stop, c⟩

/-- The empty lines at the start of a text of unknown indentation, and the widest column that their
spaces and those of the first line reach. -/
def leadingGap : Nat → Mark → Cursor → Nat × Gap
  | 0, stop, c => (0, ⟨[], stop, c⟩)
  | fuel + 1, stop, c =>
    if c.peek = ' ' then
      let (width, g) := leadingGap fuel stop c.next
      (max width c.next.mark.column, g)
    else match c.lineBreak with
      | (some b, after) =>
        let (width, g) := leadingGap fuel after.mark after
        (width, { g with breaks := b :: g.breaks })
      | (none, _) => (0, ⟨[], stop, c⟩)

/-- Whether a line of a block scalar follows a gap. -/
def Gap.opensLine (indent : Nat) (g : Gap) : Bool :=
  g.cursor.mark.column == indent && g.cursor.peek != endOfText

/-- The lines of a block scalar with the gap in front of each, the break that ends the last line,
and the gap behind it. -/
def blockLines (folded : Bool) (indent : Nat) : Nat → Gap → List Char × Option Char × Gap
  | 0, g => ([], none, g)
  | fuel + 1, g =>
    if g.opensLine indent then
      let line := g.cursor.takeWhile (!isBreakOrEnd ·)
      let (lineBreak, after) := (g.cursor.skip line.length).lineBreak
      let next := gap indent fuel after.mark after
      if next.opensLine indent then
        let folds := folded && lineBreak == some '\n' && !isSpace g.cursor.peek &&
          !isSpace next.cursor.peek
        let joint :=
          if folds then (if next.breaks.isEmpty then [' '] else []) else lineBreak.toList
        let (text, last, final) := blockLines folded indent fuel next
        (g.breaks ++ line ++ joint ++ text, last, final)
      else (g.breaks ++ line, lineBreak, next)
    else ([], none, g)

/-- A block scalar within a block of an indentation. -/
def block (outer : Int) (c : Cursor) : Except Halt (Token × Cursor) := do
  let start := c.mark
  let folded := c.peek == '>'
  let ((chomping, increment), c) ← indicators start c.next
  let c ← restOfLine .blockScalar start c
  let least := max 1 (outer + 1).toNat
  let steps := c.rest.length + 1
  let (indent, first) := match increment with
    | some n => (least + n - 1, gap (least + n - 1) steps c.mark c)
    | none =>
      let (width, g) := leadingGap steps c.mark c
      (max least width, g)
  let (text, last, final) := blockLines folded indent steps first
  let ending := match chomping with
    | .strip => []
    | .clip => last.toList
    | .keep => last.toList ++ final.breaks
  .ok (⟨.scalar (String.ofList (text ++ ending)) false, start, final.stop⟩, final.cursor)

/-- The characters that one-letter escapes stand for. -/
def shortEscapes : List (Char × Char) :=
  [ ('0', '\x00'), ('a', '\x07'), ('b', '\x08'), ('t', '\t'), ('\t', '\t'), ('n', '\n'),
    ('v', '\x0b'), ('f', '\x0c'), ('r', '\r'), ('e', '\x1b'), (' ', ' '), ('"', '"'),
    ('\\', '\\'), ('/', '/'), ('N', '\u0085'), ('_', '\u00a0'), ('L', '\u2028'), ('P', '\u2029') ]

/-- How many hexadecimal digits follow the letter of a code escape. -/
def codeLength? (c : Char) : Option Nat :=
  if c = 'x' then some 2 else if c = 'u' then some 4 else if c = 'U' then some 8 else none

/-- The character of a code, `half` standing for every surrogate. -/
def ofCode (half : Char) (n : Nat) : Except Halt Char :=
  if n.isValidChar then .ok (Char.ofNat n)
  else if n < 0x110000 then .ok half
  else .error (.broken (if n < Nat.pow 2 31 then .codePointOutOfRange else .codePointTooLarge))

/-- The line breaks ahead within a quoted scalar. -/
def quotedBreaks (start : Mark) : Nat → Cursor → Except Halt (List Char × Cursor)
  | 0, c => .ok ([], c)
  | fuel + 1, c =>
    if c.atSeparator then failWithin .quoted start .documentSeparator c
    else
      let c := c.skipWhile isSpace
      match c.lineBreak with
      | (some b, after) => do
        let (bs, after) ← quotedBreaks start fuel after
        .ok (b :: bs, after)
      | (none, _) => .ok ([], c)

/-- What an escape stands for; the cursor is behind its backslash. -/
def escape (start : Mark) (c : Cursor) : Except Halt (List Char × Cursor) :=
  match shortEscapes.lookup c.peek, codeLength? c.peek, c.lineBreak with
  | some d, _, _ => .ok ([d], c.next)
  | _, some n, _ =>
    let digits := c.next
    match (List.range n).find? fun k => !isHexDigit (digits.peek k) with
    | some k => failWithin .doubleQuoted start (.expectedHexDigits n (digits.peek k)) digits
    | none => do
      let d ← ofCode c.half (hexValue (digits.rest.take n))
      .ok ([d], digits.skip n)
  | _, _, (some _, after) => quotedBreaks start (after.rest.length + 1) after
  | _, _, (none, _) => failWithin .doubleQuoted start (.unknownEscape c.peek) c

/-- Whether a character ends a run of a quoted scalar, if only to be looked at. -/
def endsRun (c : Char) : Bool := isSpaceOrEnd c || c == '\'' || c == '"' || c == '\\'

/-- The text of a quoted scalar up to a blank, a break or the closing quote. -/
def quotedRun (double : Bool) (start : Mark) : Nat → Cursor → Except Halt (List Char × Cursor)
  | 0, c => .ok ([], c)
  | fuel + 1, c =>
    let cs := c.takeWhile (!endsRun ·)
    let c := c.skip cs.length
    let ch := c.peek
    if !double && ch == '\'' && c.peek 1 == '\'' then do
      let (more, c) ← quotedRun double start fuel (c.skip 2)
      .ok (cs ++ '\'' :: more, c)
    else if (double && ch == '\'') || (!double && (ch == '"' || ch == '\\')) then do
      let (more, c) ← quotedRun double start fuel c.next
      .ok (cs ++ ch :: more, c)
    else if double && ch == '\\' then do
      let (ds, c) ← escape start c.next
      let (more, c) ← quotedRun double start fuel c
      .ok (cs ++ ds ++ more, c)
    else .ok (cs, c)

/-- The blanks and breaks between two runs of a quoted scalar. -/
def quotedSpaces (start : Mark) (c : Cursor) : Except Halt (List Char × Cursor) :=
  let blanks := c.takeWhile isSpace
  let c := c.skip blanks.length
  if c.peek = endOfText then failWithin .quoted start .endOfStream c
  else match c.lineBreak with
    | (none, _) => .ok (blanks, c)
    | (some b, after) => do
      let (bs, after) ← quotedBreaks start (after.rest.length + 1) after
      let joint := if b ≠ '\n' then [b] else if bs.isEmpty then [' '] else []
      .ok (joint ++ bs, after)

/-- The text of a quoted scalar up to the closing quote. -/
def quotedText (quote : Char) (start : Mark) : Nat → Cursor → Except Halt (List Char × Cursor)
  | 0, c => .ok ([], c)
  | fuel + 1, c => do
    let (cs, c) ← quotedRun (quote == '"') start (c.rest.length + 1) c
    if c.peek = quote then .ok (cs, c)
    else
      let (blanks, c) ← quotedSpaces start c
      let (more, c) ← quotedText quote start fuel c
      .ok (cs ++ blanks ++ more, c)

/-- A quoted scalar. -/
def quoted (c : Cursor) : Except Halt (Token × Cursor) := do
  let (cs, after) ← quotedText c.peek c.mark (c.rest.length + 1) c.next
  .ok (token c.mark after.next (.scalar (String.ofList cs) false))

/-- Whether a character structures flow collections. -/
def isFlowIndicator (c : Char) : Bool := ",[]\x7b\x7d".toList.contains c

/-- Whether a plain scalar ends before a character that another one follows. -/
def endsPlain (inFlow : Bool) (c next : Char) : Bool :=
  isSpaceOrEnd c || (c == ':' && (isSpaceOrEnd next || (inFlow && isFlowIndicator next))) ||
    (inFlow && (isFlowIndicator c || c == '?'))

/-- The part of a plain scalar at the head of a text, up to a blank. -/
def plainRun (inFlow : Bool) : List Char → List Char
  | [] => []
  | c :: cs => if endsPlain inFlow c (cs.headD endOfText) then [] else c :: plainRun inFlow cs

/-- The breaks ahead within a plain scalar; a document marker behind one of them ends the scalar. -/
def plainBreaks : Nat → Cursor → Option (List Char) × Cursor
  | 0, c => (some [], c)
  | fuel + 1, c =>
    let c := c.skipWhile (· == ' ')
    match c.lineBreak with
    | (none, _) => (some [], c)
    | (some b, after) =>
      if after.atSeparator then (none, after)
      else
        let (bs, after) := plainBreaks fuel after
        (bs.map (b :: ·), after)

/-- What may join two runs of a plain scalar, whether it spans lines, and the cursor behind it. -/
structure Joint where
  text : List Char
  broken : Bool
  cursor : Cursor

/-- The blanks and breaks behind a run of a plain scalar. -/
def plainJoint (c : Cursor) : Joint :=
  let blanks := c.takeWhile (· == ' ')
  let c := c.skip blanks.length
  match c.lineBreak with
  | (none, _) => ⟨blanks, false, c⟩
  | (some b, after) =>
    if after.atSeparator then ⟨[], true, after⟩
    else match plainBreaks (after.rest.length + 1) after with
      | (none, after) => ⟨[], true, after⟩
      | (some bs, after) =>
        ⟨(if b ≠ '\n' then [b] else if bs.isEmpty then [' '] else []) ++ bs, true, after⟩

/-- The text of a plain scalar, where it stops, and what follows its last run. -/
structure PlainText where
  text : List Char
  stop : Mark
  last : Joint

/-- The text of a plain scalar within a block of an indentation, after a joint. -/
def plainText (inFlow : Bool) (indent : Int) : Nat → Mark → Joint → PlainText
  | 0, stop, j => ⟨[], stop, j⟩
  | fuel + 1, stop, j =>
    let run := plainRun inFlow j.cursor.rest
    if j.cursor.peek = '#' ∨ run.isEmpty then ⟨[], stop, j⟩
    else
      let after := j.cursor.skip run.length
      let next := plainJoint after
      if next.text.isEmpty || next.cursor.peek == '#' ||
          (!inFlow && decide ((next.cursor.mark.column : Int) < indent)) then
        ⟨j.text ++ run, after.mark, next⟩
      else
        let p := plainText inFlow indent fuel after.mark next
        { p with text := j.text ++ run ++ p.text }

/-- A plain scalar, and whether a line break follows its last run. -/
def plain (inFlow : Bool) (indent : Int) (c : Cursor) : Token × Bool × Cursor :=
  let p := plainText inFlow indent (c.rest.length + 1) c.mark ⟨[], false, c⟩
  (⟨.scalar (String.ofList p.text) true, c.mark, p.stop⟩, p.last.broken, p.last.cursor)

end LiveDoc.Yaml.Scalar
