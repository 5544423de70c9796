import LiveDoc.Yaml.Cursor
import LiveDoc.Number.Numeral

/-!
# Names, tags and directives

The short lexemes of YAML text: each reader starts at the first character of a lexeme and hands back
its token with the cursor behind it.
-/

namespace LiveDoc.Yaml.Lexeme

/-- Whether a character may stand in a name. -/
def isWord (c : Char) : Bool := c.isAlphanum || c == '-' || c == '_'

/-- Whether a character may stand in a resource identifier. -/
def isResource (c : Char) : Bool := c.isAlphanum || "-;/?:@&=+$,_.!~*'()[]%".toList.contains c

/-- Whether a character is a space or ends a line or the text. -/
def isBlankOrEnd (c : Char) : Bool := c == ' ' || isBreakOrEnd c

/-- Whether a character may follow the name of an anchor or alias. -/
def endsAnchor (c : Char) : Bool := isSpaceOrEnd c || "?:,]\x7d%@\x60".toList.contains c

/-- Whether a character is a hexadecimal digit. -/
def isHexDigit (c : Char) : Bool :=
  Text.isAsciiDigit c || ('a' ≤ c && c ≤ 'f') || ('A' ≤ c && c ≤ 'F')

/-- The number that hexadecimal digits write. -/
def hexValue (cs : List Char) : Nat :=
  Numeral.value 16 (cs.map fun c => if Text.isAsciiDigit c then c.toNat - 48 else c.toNat % 32 + 9)

/-- The token of a lexeme between two cursors. -/
def token (start : Mark) (c : Cursor) (kind : TokenKind) : Token × Cursor :=
  (⟨kind, start, c.mark⟩, c)

/-- A name, and a character that may follow it. -/
def name (context : Context) (start : Mark) (ends : Char → Bool) (c : Cursor) :
    Except Halt (String × Cursor) :=
  let cs := c.takeWhile isWord
  if cs.isEmpty then failWithin context start (.expectedName c.peek) c
  else
    let after := c.skip cs.length
    if ends after.peek then .ok (String.ofList cs, after)
    else failWithin context start (.expectedName after.peek) after

/-- An anchor, or an alias that refers to one. -/
def anchor (c : Cursor) : Except Halt (Token × Cursor) :=
  let isAlias := c.peek == '*'
  do
    let (s, after) ← name (if isAlias then .alias else .anchor) c.mark endsAnchor c.next
    .ok (token c.mark after (if isAlias then .alias s else .anchor s))

/-- The bytes of an escaped run in a resource identifier. -/
def escapedBytes (context : Context) (start : Mark) :
    Nat → Cursor → Except Halt (List UInt8 × Cursor)
  | 0, c => .ok ([], c)
  | fuel + 1, c =>
    if c.peek = '%' then
      let digits := c.next
      match (List.range 2).find? fun k => !isHexDigit (digits.peek k) with
      | some k => failWithin context start (.expectedUriEscape (digits.peek k)) digits
      | none => do
        let (bytes, after) ← escapedBytes context start fuel (digits.skip 2)
        .ok (UInt8.ofNat (hexValue (digits.rest.take 2)) :: bytes, after)
    else .ok ([], c)

/-- The characters of an escaped run in a resource identifier. -/
def escaped (context : Context) (start : Mark) (c : Cursor) :
    Except Halt (List Char × Cursor) := do
  let (bytes, after) ← escapedBytes context start c.rest.length c
  match Encoding.decode .utf8 bytes with
  | .ok s => .ok (s.toList, after)
  | .error f => failWithin context start (.undecodableUri f) c

/-- The characters of a resource identifier, as many as there are. -/
def resourceChars (context : Context) (start : Mark) :
    Nat → Cursor → Except Halt (List Char × Cursor)
  | 0, c => .ok ([], c)
  | fuel + 1, c =>
    let plain := c.takeWhile fun x => isResource x && x != '%'
    let after := c.skip plain.length
    if after.peek = '%' then do
      let (cs, after) ← escaped context start after
      let (more, after) ← resourceChars context start fuel after
      .ok (plain ++ cs ++ more, after)
    else .ok (plain, after)

/-- A resource identifier, which has at least one character. -/
def resource (scanning reading : Context) (start : Mark) (c : Cursor) :
    Except Halt (String × Cursor) := do
  let (cs, after) ← resourceChars scanning start (c.rest.length + 1) c
  if c.rest.length = after.rest.length then failWithin reading start (.expectedUri after.peek) after
  else .ok (String.ofList cs, after)

/-- The handle of a tag: an exclamation mark, or a name between two. -/
def handle (context : Context) (start : Mark) (c : Cursor) : Except Halt (String × Cursor) :=
  if c.peek ≠ '!' then failWithin context start (.expectedBang c.peek) c
  else if c.peek 1 = ' ' then .ok ("!", c.next)
  else
    let word := c.next.takeWhile isWord
    let after := c.skip (word.length + 1)
    if after.peek = '!' then .ok (String.ofList ('!' :: word ++ ['!']), after.next)
    else failWithin context start (.expectedBang after.peek) after

/-- The handle and suffix of a tag that is written out. -/
def tagParts (c : Cursor) : Except Halt ((Option String × String) × Cursor) :=
  let start := c.mark
  let second := c.peek 1
  if second = '<' then do
    let (suffix, after) ← resource .tag .tagSyntax start (c.skip 2)
    if after.peek = '>' then .ok ((none, suffix), after.next)
    else failWithin .tagSyntax start (.expectedTagEnd after.peek) after
  else if isSpaceOrEnd second then .ok ((none, "!"), c.next)
  else do
    let word := c.next.takeWhile (!isBlankOrEnd ·)
    let (h, after) ← if word.contains '!' then handle .tag start c else .ok ("!", c.next)
    let (suffix, after) ← resource .tag .tagSyntax start after
    .ok ((some h, suffix), after)

/-- A tag. -/
def tag (c : Cursor) : Except Halt (Token × Cursor) := do
  let ((h, suffix), after) ← tagParts c
  if isBlankOrEnd after.peek then .ok (token c.mark after (.tag h suffix))
  else failWithin .tag c.mark (.expectedSpace after.peek) after

/-- A number in a version. -/
def versionNumber (start : Mark) (c : Cursor) : Except Halt (Nat × Cursor) :=
  let ds := c.takeWhile Text.isAsciiDigit
  if ds.isEmpty then failWithin .directive start (.expectedDigit c.peek) c
  else match Numeral.integer 10 (String.ofList ds) with
    | .ok n => .ok (n.toNat, c.skip ds.length)
    | .error f => .error (.broken f)

/-- The version that a directive states. -/
def version (start : Mark) (c : Cursor) : Except Halt (TokenKind × Cursor) := do
  let (major, c) ← versionNumber start (c.skipWhile (· == ' '))
  if c.peek ≠ '.' then failWithin .directive start (.expectedDigitOrDot c.peek) c
  else
    let (minor, c) ← versionNumber start c.next
    if isBlankOrEnd c.peek then .ok (.version major minor, c)
    else failWithin .directive start (.expectedDigitOrSpace c.peek) c

/-- The handle that a directive declares, and what it stands for. -/
def tagHandle (start : Mark) (c : Cursor) : Except Halt (TokenKind × Cursor) := do
  let (h, c) ← handle .directive start (c.skipWhile (· == ' '))
  if c.peek ≠ ' ' then failWithin .directive start (.expectedSpace c.peek) c
  else
    let (lead, c) ← resource .directive .directiveSyntax start (c.skipWhile (· == ' '))
    if isBlankOrEnd c.peek then .ok (.tagHandle h lead, c)
    else failWithin .directive start (.expectedSpace c.peek) c

/-- The rest of a line that holds nothing but a comment, up to the next line. -/
def restOfLine (context : Context) (start : Mark) (c : Cursor) : Except Halt Cursor :=
  let c := (c.skipWhile (· == ' ')).skipComment
  if isBreakOrEnd c.peek then .ok c.lineBreak.2
  else failWithin context start (.expectedCommentOrBreak c.peek) c

/-- A directive with the rest of its line. Directives of unknown name may say anything. -/
def directive (c : Cursor) : Except Halt (Token × Cursor) := do
  let start := c.mark
  let (s, c) ← name .directive start isBlankOrEnd c.next
  let (kind, c) ←
    if s = "YAML" then version start c
    else if s = "TAG" then tagHandle start c
    else .ok (.otherDirective s, c)
  let c' := match kind with
    | .otherDirective _ => c.skipWhile (!isBreakOrEnd ·)
    | _ => c
  .ok (⟨kind, start, c.mark⟩, ← restOfLine .directive start c')

end LiveDoc.Yaml.Lexeme
