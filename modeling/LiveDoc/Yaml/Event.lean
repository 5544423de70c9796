import LiveDoc.Yaml.TokenStream

/-!
# Events

Tokens become the events of documents: nodes without content of their own, and the starts and ends
of collections. What is expected next stands on a stack, so nesting needs no recursion.
-/

namespace LiveDoc.Yaml

/-- How the tag of a node is found: it is written out, or it follows from the text of a scalar, or
it is that of the kind of node. -/
inductive Tagging where
  | named (tag : String)
  | byText
  | byKind
deriving DecidableEq, Repr

/-- What an event says. -/
inductive EventKind where
  | streamStart
  | streamEnd
  | documentStart
  | documentEnd
  | alias (name : String)
  | scalar (anchor : Option String) (tag : Tagging) (text : String)
  | sequenceStart (anchor : Option String) (tag : Tagging)
  | sequenceEnd
  | mappingStart (anchor : Option String) (tag : Tagging)
  | mappingEnd
deriving DecidableEq, Repr

/-- An event and the place where it starts. -/
structure Event where
  kind : EventKind
  mark : Mark
deriving DecidableEq, Repr

/-- What may come next. Items, keys and values know where their collection starts. -/
inductive Expecting where
  | streamStart
  | firstDocument
  | document
  | documentContent
  | documentEnd
  | item (start : Mark)
  | looseItem
  | key (start : Mark)
  | value (start : Mark)
  | flowItem (start : Mark) (first : Bool)
  | pairKey (start : Mark)
  | pairValue (start : Mark)
  | pairEnd (start : Mark)
  | flowKey (start : Mark) (first : Bool)
  | flowValue (start : Mark)
  | flowEmptyValue (start : Mark)
  | blockNode
deriving DecidableEq, Repr

/-- The tokens ahead, what is expected of them, and what the handles of tags stand for. -/
structure Reading where
  tokens : List Token
  halt : Option Halt
  expecting : List Expecting
  handles : List (String × String)

namespace Reading

/-- The next token. -/
def peek (r : Reading) : Except Halt Token :=
  match r.tokens, r.halt with
  | t :: _, _ => .ok t
  | [], some h => .error h
  | [], none => .ok ⟨.streamEnd, {}, {}⟩

/-- The reading behind the next token. -/
def advance (r : Reading) : Reading := { r with tokens := r.tokens.tail }

/-- The reading with another expectation in the place of the first. -/
def expect (r : Reading) (e : Expecting) : Reading :=
  { r with expecting := e :: r.expecting.tail }

/-- The reading with an expectation in front of the others. -/
def enter (r : Reading) (e : Expecting) : Reading := { r with expecting := e :: r.expecting }

/-- The reading with the first expectation met. -/
def leave (r : Reading) : Reading := { r with expecting := r.expecting.tail }

/-- An event with the reading behind it. -/
def found (r : Reading) (kind : EventKind) (mark : Mark) : Except Halt (Event × Reading) :=
  .ok (⟨kind, mark⟩, r)

/-- A scalar that is left out. -/
def empty (r : Reading) (mark : Mark) : Except Halt (Event × Reading) :=
  r.found (.scalar none .byText "") mark

/-- A token that was not expected. -/
def refuse {α : Type} (context : Context) (start : Mark) (problem : String → Problem) (t : Token) :
    Except Halt α :=
  .error (.malformed (.within context start (problem t.kind.name) t.start))

/-- The handles that need no declaration. -/
def standardHandles : List (String × String) := [("!", "!"), ("!!", "tag:yaml.org,2002:")]

/-- The anchor and tag in front of a node, where they start, and where the tag starts. -/
structure Properties where
  anchor : Option String := none
  tag : Option (Option String × String) := none
  start : Option Mark := none
  tagMark : Mark := {}

/-- The properties with one token more, if it is one that they do not have yet. -/
def Properties.add? (ps : Properties) (t : Token) : Option Properties :=
  match t.kind, ps.anchor, ps.tag with
  | .anchor name, none, _ =>
    some { ps with anchor := some name, start := ps.start.or (some t.start) }
  | .tag h suffix, _, none =>
    some { ps with tag := some (h, suffix), start := ps.start.or (some t.start),
                   tagMark := t.start }
  | _, _, _ => none

/-- The anchor and tag ahead, in either order. -/
def properties : Nat → Properties → Reading → Except Halt (Properties × Reading)
  | 0, ps, r => .ok (ps, r)
  | fuel + 1, ps, r => do
    match ps.add? (← r.peek) with
    | some ps => properties fuel ps r.advance
    | none => .ok (ps, r)

/-- The tag that a handle and a suffix write. -/
def tagName (r : Reading) (ps : Properties) : Except Halt (Option String) :=
  match ps.tag with
  | none => .ok none
  | some (none, suffix) => .ok (some suffix)
  | some (some h, suffix) =>
    match r.handles.lookup h with
    | some lead => .ok (some (lead ++ suffix))
    | none =>
      .error (.malformed (.within .node (ps.start.getD ps.tagMark) (.undefinedHandle h) ps.tagMark))

/-- The tagging of a collection. -/
def collectionTag (tag : Option String) : Tagging :=
  match tag with
  | some t => if t = "!" then .byKind else .named t
  | none => .byKind

/-- The tagging of a scalar. -/
def scalarTag (tag : Option String) (plain : Bool) : Tagging :=
  match tag with
  | some t => if t = "!" then .byText else .named t
  | none => if plain then .byText else .byKind

/-- A node with its properties. In a block a node may be a block collection, and the value of a
mapping may be a sequence that is not indented. -/
def node (inBlock loose : Bool) (r : Reading) : Except Halt (Event × Reading) := do
  let t ← r.peek
  match t.kind with
  | .alias name => r.advance.found (.alias name) t.start
  | _ =>
    let (ps, r) ← properties 2 {} r
    let tag ← r.tagName ps
    let t ← r.peek
    let start := ps.start.getD t.start
    match t.kind, inBlock, loose with
    | .blockEntry, _, true =>
      (r.enter .looseItem).found (.sequenceStart ps.anchor (collectionTag tag)) start
    | .scalar s plain, _, _ =>
      r.advance.found (.scalar ps.anchor (scalarTag tag plain) s) start
    | .flowSequenceStart, _, _ =>
      (r.advance.enter (.flowItem t.start true)).found
        (.sequenceStart ps.anchor (collectionTag tag)) start
    | .flowMappingStart, _, _ =>
      (r.advance.enter (.flowKey t.start true)).found
        (.mappingStart ps.anchor (collectionTag tag)) start
    | .blockSequenceStart, true, _ =>
      (r.advance.enter (.item t.start)).found (.sequenceStart ps.anchor (collectionTag tag)) start
    | .blockMappingStart, true, _ =>
      (r.advance.enter (.key t.start)).found (.mappingStart ps.anchor (collectionTag tag)) start
    | _, _, _ =>
      if ps.anchor.isSome || tag.isSome then
        r.found (.scalar ps.anchor (scalarTag tag true) "") start
      else refuse (if inBlock then .blockNode else .flowNode) start .expectedContent t

/-- The node behind a token, unless the next token shows that it is left out; `next` is expected
after it. -/
def nodeUnless (ends : TokenKind → Bool) (inBlock loose : Bool) (next : Expecting) (t : Token)
    (r : Reading) : Except Halt (Event × Reading) := do
  let r := r.advance.expect next
  if ends (← r.peek).kind then r.empty t.stop else node inBlock loose r

/-- Whether a token cannot start the content of a key or value in a block. -/
def endsBlockPart (k : TokenKind) : Bool := k == .key || k == .value || k == .blockEnd

/-- Whether a token ends the key of a pair in a flow sequence. -/
def endsPairKey (k : TokenKind) : Bool :=
  k == .value || k == .flowEntry || k == .flowSequenceEnd

/-- Whether a token ends an item of a flow sequence. -/
def endsFlowItem (k : TokenKind) : Bool := k == .flowEntry || k == .flowSequenceEnd

/-- Whether a token ends a key of a flow mapping. -/
def endsFlowKey (k : TokenKind) : Bool := k == .value || k == .flowEntry || k == .flowMappingEnd

/-- Whether a token ends a value of a flow mapping. -/
def endsFlowValue (k : TokenKind) : Bool := k == .flowEntry || k == .flowMappingEnd

/-- Takes note of the directives ahead: whether there was a version, and the declared handles. -/
def directives : Nat → Bool → Reading → Except Halt Reading
  | 0, _, r => .ok r
  | fuel + 1, versioned, r => do
    let t ← r.peek
    match t.kind with
    | .version major _ =>
      if versioned then .error (.malformed (.plain .duplicateVersion t.start))
      else if major ≠ 1 then .error (.malformed (.plain .incompatibleVersion t.start))
      else directives fuel true r.advance
    | .tagHandle h lead =>
      if (r.handles.lookup h).isSome then
        .error (.malformed (.plain (.duplicateHandle h) t.start))
      else directives fuel versioned { r.advance with handles := (h, lead) :: r.handles }
    | .otherDirective _ => directives fuel versioned r.advance
    | _ => .ok r

/-- The start of a document that is marked, or the end of the stream. -/
def document (r : Reading) : Except Halt (Event × Reading) := do
  let r := { r with tokens := r.tokens.dropWhile fun t => t.kind == TokenKind.documentEnd }
  let t ← r.peek
  if t.kind == .streamEnd then r.advance.leave.found .streamEnd t.start
  else
    let r ← directives (r.tokens.length + 1) false { r with handles := [] }
    let r := { r with handles := r.handles ++ standardHandles }
    let s ← r.peek
    if s.kind == .documentStart then
      ((r.advance.expect .documentEnd).enter .documentContent).found .documentStart t.start
    else .error (.malformed (.plain (.expectedDocumentStart s.kind.name) s.start))

/-- Whether a token may open a document that is marked, or end the stream. -/
def opensDocument (k : TokenKind) : Bool := k.isDirective || k == .documentStart || k == .streamEnd

/-- The start of the first document, which needs no mark. -/
def firstDocument (r : Reading) : Except Halt (Event × Reading) := do
  let t ← r.peek
  if opensDocument t.kind then document r
  else
    (({ r with handles := standardHandles }.expect .documentEnd).enter .blockNode).found
      .documentStart t.start

/-- What stands between two entries of a flow collection has been read, or is not needed. -/
def separated (first : Bool) (context : Context) (start : Mark) (problem : String → Problem)
    (r : Reading) : Except Halt Reading := do
  if first then .ok r
  else
    let t ← r.peek
    if t.kind == .flowEntry then .ok r.advance else refuse context start problem t

/-- An item of a flow sequence, which may be a pair, or the end of the sequence. -/
def flowItem (start : Mark) (first : Bool) (r : Reading) : Except Halt (Event × Reading) := do
  let t ← r.peek
  if t.kind == .flowSequenceEnd then r.advance.leave.found .sequenceEnd t.start
  else
    let r ← separated first .flowSequence start .expectedSequenceEnd r
    let t ← r.peek
    if t.kind == .key then
      (r.expect (.pairKey start)).found (.mappingStart none .byKind) t.start
    else if t.kind == .flowSequenceEnd then r.advance.leave.found .sequenceEnd t.start
    else node false false (r.expect (.flowItem start false))

/-- A key of a flow mapping, or the end of the mapping. -/
def flowKey (start : Mark) (first : Bool) (r : Reading) : Except Halt (Event × Reading) := do
  let t ← r.peek
  if t.kind == .flowMappingEnd then r.advance.leave.found .mappingEnd t.start
  else
    let r ← separated first .flowMapping start .expectedMappingEnd r
    let t ← r.peek
    if t.kind == .key then nodeUnless endsFlowKey false false (.flowValue start) t r
    else if t.kind == .flowMappingEnd then r.advance.leave.found .mappingEnd t.start
    else node false false (r.expect (.flowEmptyValue start))

/-- A value behind its mark, or an empty one where the mark is left out. -/
def valueOf (ends : TokenKind → Bool) (inBlock : Bool) (next : Expecting) (r : Reading) :
    Except Halt (Event × Reading) := do
  let t ← r.peek
  if t.kind == .value then nodeUnless ends inBlock inBlock next t r
  else (r.expect next).empty t.start

/-- The next event, by what is expected. -/
def next (e : Expecting) (r : Reading) : Except Halt (Event × Reading) := do
  let t ← r.peek
  match e with
  | .streamStart => (r.advance.expect .firstDocument).found .streamStart t.start
  | .firstDocument => firstDocument r
  | .document => document r
  | .documentContent =>
    if opensDocument t.kind || t.kind == .documentEnd then r.leave.empty t.start
    else node true false r.leave
  | .documentEnd =>
    let r := if t.kind == .documentEnd then r.advance else r
    (r.expect .document).found .documentEnd t.start
  | .blockNode => node true false r.leave
  | .item start =>
    if t.kind == .blockEntry then
      nodeUnless (fun k => k == .blockEntry || k == .blockEnd) true false (.item start) t r
    else if t.kind == .blockEnd then r.advance.leave.found .sequenceEnd t.start
    else refuse .blockCollection start .expectedBlockEnd t
  | .looseItem =>
    if t.kind == .blockEntry then
      nodeUnless (fun k => k == .blockEntry || endsBlockPart k) true false .looseItem t r
    else r.leave.found .sequenceEnd t.start
  | .key start =>
    if t.kind == .key then nodeUnless endsBlockPart true true (.value start) t r
    else if t.kind == .blockEnd then r.advance.leave.found .mappingEnd t.start
    else refuse .blockMapping start .expectedBlockEnd t
  | .value start => valueOf endsBlockPart true (.key start) r
  | .flowItem start first => flowItem start first r
  | .pairKey start => nodeUnless endsPairKey false false (.pairValue start) t r
  | .pairValue start => valueOf endsFlowItem false (.pairEnd start) r
  | .pairEnd start => (r.expect (.flowItem start false)).found .mappingEnd t.start
  | .flowKey start first => flowKey start first r
  | .flowValue start => valueOf endsFlowValue false (.flowKey start false) r
  | .flowEmptyValue start => (r.expect (.flowKey start false)).empty t.start

/-- The events from a reading on. -/
def run : Nat → Reading → Stream Event
  | 0, r => ⟨[], r.halt⟩
  | fuel + 1, r =>
    match r.expecting with
    | [] => ⟨[], none⟩
    | e :: _ =>
      match next e r with
      | .error h => ⟨[], some h⟩
      | .ok (event, r) =>
        let s := run fuel r
        { s with items := event :: s.items }

end Reading

/-- The events of a text. -/
def events (text : List Char) (half : Char := '\uFFFD') : Stream Event :=
  let ts := tokens text half
  Reading.run (4 * ts.items.length + 8)
    { tokens := ts.items, halt := ts.halt, expecting := [.streamStart], handles := [] }

end LiveDoc.Yaml
