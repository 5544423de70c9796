import LiveDoc.Yaml.Scalar

/-!
# The tokens of a text

Reading goes from left to right and keeps the indentation of the open blocks. A scalar or collection
may turn out to be a mapping key only when a colon follows it on its line, so its place is
remembered, and the tokens from there on are handed out once that is settled.
-/

namespace LiveDoc.Yaml

/-- A token that may become a key: its number among the tokens and its place. A required one must.
-/
structure PendingKey where
  number : Nat
  required : Bool
  level : Int
  mark : Mark

/-- How far the tokens of a text are known. `level` counts open flow collections, `indent` is the
indentation of the innermost block and `outer` that of the blocks around it. -/
structure Progress where
  cursor : Cursor
  tokens : Array Token
  level : Int := 0
  indent : Int := -1
  outer : List Int := []
  allowKey : Bool := true
  pending : List PendingKey := []

namespace Progress

/-- The column of the next character. -/
def column (p : Progress) : Int := p.cursor.mark.column

/-- Whether a flow collection is open. -/
def inFlow (p : Progress) : Bool := p.level != 0

/-- One more token. -/
def push (p : Progress) (t : Token) : Progress := { p with tokens := p.tokens.push t }

/-- One more token, without text of its own. -/
def pushHere (p : Progress) (kind : TokenKind) : Progress :=
  p.push ⟨kind, p.cursor.mark, p.cursor.mark⟩

/-- One more token, made of the next characters. -/
def pushNext (p : Progress) (length : Nat) (kind : TokenKind) : Progress :=
  let after := p.cursor.skip length
  { p with cursor := after, tokens := p.tokens.push ⟨kind, p.cursor.mark, after.mark⟩ }

/-- One more token, with the cursor behind it. -/
def pushRead (p : Progress) (read : Token × Cursor) : Progress :=
  { p with cursor := read.2, tokens := p.tokens.push read.1 }

/-- The first token that may still become a key. -/
def firstPending? (p : Progress) : Option Nat := (p.pending.map (·.number)).min?

/-- The tokens that are settled. -/
def settled (p : Progress) : List Token :=
  match p.firstPending? with
  | some n => p.tokens.toList.take n
  | none => p.tokens.toList

/-- The most characters between a key and its colon. -/
def maxKeySpan : Nat := 1024

/-- Whether the text has gone past the reach of a pending key. -/
def isStale (p : Progress) (k : PendingKey) : Bool :=
  k.mark.line != p.cursor.mark.line || maxKeySpan < p.cursor.mark.index - k.mark.index

/-- Gives up pending keys; a required one must not be given up. -/
def giveUp (p : Progress) (which : PendingKey → Bool) : Except Halt Progress :=
  match p.pending.find? fun k => which k && k.required with
  | some k => failWithin .simpleKey k.mark .missingColon p.cursor
  | none => .ok { p with pending := p.pending.filter (!which ·) }

/-- Gives up the keys that are out of reach. -/
def dropStale (p : Progress) : Except Halt Progress := p.giveUp p.isStale

/-- Gives up the key of the current level. -/
def dropKey (p : Progress) : Except Halt Progress := p.giveUp (·.level == p.level)

/-- Remembers that the next token may become a key, where one is allowed. -/
def saveKey (p : Progress) : Except Halt Progress :=
  if p.allowKey then do
    let q ← p.dropKey
    let key : PendingKey :=
      { number := p.tokens.size, required := !p.inFlow && p.indent == p.column, level := p.level,
        mark := p.cursor.mark }
    .ok { q with pending := q.pending ++ [key] }
  else .ok p

/-- Closes the blocks that are indented beyond a column. -/
def closeBlocks (column : Int) : List Int → Progress → Progress
  | [], p => p
  | i :: outer, p =>
    if column < p.indent then
      closeBlocks column outer { p.pushHere .blockEnd with indent := i, outer := outer }
    else p

/-- Closes the blocks that are indented beyond a column, unless a flow collection is open. -/
def unwind (p : Progress) (column : Int) : Progress :=
  if p.inFlow then p else closeBlocks column p.outer p

/-- The progress within a block of a column. -/
def indented (p : Progress) (column : Int) : Progress :=
  { p with indent := column, outer := p.indent :: p.outer }

/-- Opens a block at the next character if it is indented deeper than the innermost one. -/
def openBlock (p : Progress) (kind : TokenKind) : Progress :=
  if p.indent < p.column then (p.indented p.column).pushHere kind else p

/-- A token that opens a flow collection. -/
def openFlow (p : Progress) (kind : TokenKind) : Except Halt Progress := do
  let p ← p.saveKey
  .ok ({ p with level := p.level + 1, allowKey := true }.pushNext 1 kind)

/-- A token that closes a flow collection. -/
def closeFlow (p : Progress) (kind : TokenKind) : Except Halt Progress := do
  let p ← p.dropKey
  .ok ({ p with level := p.level - 1, allowKey := false }.pushNext 1 kind)

/-- A token that separates the entries of a flow collection. -/
def separate (p : Progress) : Except Halt Progress := do
  let p ← p.dropKey
  .ok ({ p with allowKey := true }.pushNext 1 .flowEntry)

/-- Opens a block for an entry, where entries are allowed. -/
def enterBlock (p : Progress) (kind : TokenKind) (problem : Problem) : Except Halt Progress :=
  if p.inFlow then .ok p
  else if p.allowKey then .ok (p.openBlock kind)
  else failAt problem p.cursor

/-- The mark of a sequence entry. -/
def blockEntry (p : Progress) : Except Halt Progress := do
  let p ← p.enterBlock .blockSequenceStart .sequenceEntryNotAllowed
  let p ← p.dropKey
  .ok ({ p with allowKey := true }.pushNext 1 .blockEntry)

/-- The mark of a key. -/
def keyMark (p : Progress) : Except Halt Progress := do
  let p ← p.enterBlock .blockMappingStart .mappingKeyNotAllowed
  let p ← p.dropKey
  .ok ({ p with allowKey := !p.inFlow }.pushNext 1 .key)

/-- One more token in front of the token of a number. -/
def insert (p : Progress) (number : Nat) (mark : Mark) (kind : TokenKind) : Progress :=
  { p with tokens := p.tokens.insertIdxIfInBounds number ⟨kind, mark, mark⟩ }

/-- Turns a pending token into a key, which may open a block mapping. -/
def settleKey (p : Progress) (k : PendingKey) : Progress :=
  let p := { p with pending := p.pending.filter (·.level != p.level), allowKey := false }
  let p := p.insert k.number k.mark .key
  if ¬p.inFlow ∧ p.indent < (k.mark.column : Int) then
    (p.indented k.mark.column).insert k.number k.mark .blockMappingStart
  else p

/-- The mark of a value, which makes a key of what stands before it. -/
def valueMark (p : Progress) : Except Halt Progress :=
  match p.pending.find? (·.level == p.level) with
  | some k => .ok ((p.settleKey k).pushNext 1 .value)
  | none => do
    let p ← p.enterBlock .blockMappingStart .mappingValueNotAllowed
    let p ← p.dropKey
    .ok ({ p with allowKey := !p.inFlow }.pushNext 1 .value)

/-- A lexeme that may be a key or a part of one. -/
def keyable (p : Progress) (read : Cursor → Except Halt (Token × Cursor)) :
    Except Halt Progress := do
  let p ← p.saveKey
  .ok ({ p with allowKey := false }.pushRead (← read p.cursor))

/-- A plain scalar. A break behind it allows a key to follow. -/
def plainScalar (p : Progress) : Except Halt Progress := do
  let p ← p.saveKey
  let (token, broken, after) := Scalar.plain p.inFlow (p.indent + 1) p.cursor
  .ok ({ p with allowKey := broken }.pushRead (token, after))

/-- A block scalar. -/
def blockScalar (p : Progress) : Except Halt Progress := do
  let p ← p.dropKey
  .ok ({ p with allowKey := true }.pushRead (← Scalar.block p.indent p.cursor))

/-- Leaves all blocks, for a directive or a document marker. -/
def leaveBlocks (p : Progress) : Except Halt Progress := do
  let p ← (p.unwind (-1)).dropKey
  .ok { p with allowKey := false }

/-- The cursor behind blanks, comments and breaks; a break allows a key to follow, unless a flow
collection is open. -/
def skipBlanks : Nat → Progress → Progress
  | 0, p => p
  | fuel + 1, p =>
    let c := (p.cursor.skipWhile (· == ' ')).skipComment
    match c.lineBreak with
    | (some _, after) =>
      skipBlanks fuel { p with cursor := after, allowKey := p.allowKey || !p.inFlow }
    | (none, _) => { p with cursor := c }

/-- The progress at the next token. -/
def toNextToken (p : Progress) : Except Halt Progress := do
  let marked := p.cursor.mark.index == 0 && p.cursor.peek == '\uFEFF'
  let p := if marked then { p with cursor := p.cursor.next } else p
  let p ← (skipBlanks (p.cursor.rest.length + 1) p).dropStale
  .ok (p.unwind p.column)

/-- Whether a plain scalar starts at the next character. -/
def atPlain (p : Progress) : Bool :=
  let c := p.cursor.peek
  let indicators := "-?:,[]\x7b\x7d#&*!|>'\"%@\x60".toList
  !(isSpaceOrEnd c || indicators.contains c) ||
    (!isSpaceOrEnd (p.cursor.peek 1) && (c == '-' || (!p.inFlow && (c == '?' || c == ':'))))

/-- Whether an indicator at the next character stands on its own. -/
def standsAlone (p : Progress) : Bool := isSpaceOrEnd (p.cursor.peek 1)

/-- The progress behind the token at the next character, which is not the end of the text. -/
def readToken (p : Progress) : Except Halt Progress :=
  let c := p.cursor.peek
  let atMargin := p.cursor.mark.column == 0
  if c = '%' ∧ atMargin then do
    let p ← p.leaveBlocks
    .ok (p.pushRead (← Lexeme.directive p.cursor))
  else if atMargin ∧ p.cursor.atMarker '-' then do
    .ok ((← p.leaveBlocks).pushNext 3 .documentStart)
  else if atMargin ∧ p.cursor.atMarker '.' then do
    .ok ((← p.leaveBlocks).pushNext 3 .documentEnd)
  else if c = '[' then p.openFlow .flowSequenceStart
  else if c = '\x7b' then p.openFlow .flowMappingStart
  else if c = ']' then p.closeFlow .flowSequenceEnd
  else if c = '\x7d' then p.closeFlow .flowMappingEnd
  else if c = ',' then p.separate
  else if c = '-' ∧ p.standsAlone then p.blockEntry
  else if c = '?' ∧ (p.inFlow ∨ p.standsAlone) then p.keyMark
  else if c = ':' ∧ (p.inFlow ∨ p.standsAlone) then p.valueMark
  else if c = '*' ∨ c = '&' then p.keyable Lexeme.anchor
  else if c = '!' then p.keyable Lexeme.tag
  else if (c = '|' ∨ c = '>') ∧ ¬p.inFlow then p.blockScalar
  else if c = '\'' ∨ c = '"' then p.keyable Scalar.quoted
  else if p.atPlain then p.plainScalar
  else .error (.malformed (.marked (some (.nextToken, none)) (.cannotStartToken c) p.cursor.mark))

/-- The progress behind the end of the text. -/
def finish (p : Progress) : Except Halt Progress := do
  let p ← (p.unwind (-1)).dropKey
  .ok ({ p with pending := [] }.pushHere .streamEnd)

/-- The tokens from a progress on. What a failing step would have added is not handed out. -/
def run : Nat → Progress → Stream Token
  | 0, p => ⟨p.settled, none⟩
  | fuel + 1, p =>
    match p.toNextToken with
    | .error h => ⟨p.settled, some h⟩
    | .ok q =>
      if q.cursor.peek = endOfText then
        match q.finish with
        | .error h => ⟨p.settled, some h⟩
        | .ok q => ⟨q.tokens.toList, none⟩
      else match q.readToken >>= dropStale with
        | .error h => ⟨p.settled, some h⟩
        | .ok q => run fuel q

end Progress

/-- Whether a character may stand in YAML text. -/
def isAcceptable (c : Char) : Bool :=
  let n := c.toNat
  n == 9 || n == 10 || n == 13 || (32 ≤ n && n ≤ 126) || n == 0x85 || (0xA0 ≤ n && n ≤ 0xFFFD) ||
    0x10000 ≤ n

/-- The tokens of a text. -/
def tokens (text : List Char) (half : Char := '\uFFFD') : Stream Token :=
  match text.findIdx? (!isAcceptable ·) with
  | some i => ⟨[], some (.malformed (.unacceptable (text.getD i endOfText) i))⟩
  | none =>
    Progress.run (text.length + 2)
      { cursor := ⟨text, {}, half⟩, tokens := #[⟨.streamStart, {}, {}⟩] }

end LiveDoc.Yaml
