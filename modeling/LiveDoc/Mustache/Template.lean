import LiveDoc.Mustache.Fault
import LiveDoc.Text.Blank

/-!
# Templates

A template is text with tags in it. Tags on a line of their own take the whole line with them. A
section that is never closed makes its content the whole template.
-/

namespace LiveDoc.Mustache

/-- What opens and closes a tag. -/
structure Delimiters where
  opening : List Char
  closing : List Char
deriving DecidableEq, Repr

/-- The usual delimiters: double braces. -/
def Delimiters.usual : Delimiters := ⟨['\x7b', '\x7b'], ['\x7d', '\x7d']⟩

/-- A piece of a template. A block keeps its source text and the delimiters at its end, for values
that render the text themselves. -/
inductive Piece where
  | text (cs : List Char)
  | slot (key : String) (escaped : Bool)
  | block (key : String) (body : List Piece) (source : List Char) (delimiters : Delimiters)
  | inverted (key : String) (body : List Piece)

/-- A tag in a text: the blanks before it, its kind, its key, and what follows it. -/
structure Tag where
  blanks : List Char
  kind : Option Char
  key : List Char
  rest : List Char
deriving Repr

namespace Tag

/-- The rests of a text behind its leading blanks, the shortest one first. -/
def skips : List Char → List (List Char)
  | [] => [[]]
  | c :: cs => if Text.isBlank c then skips cs ++ [c :: cs] else [c :: cs]

/-- A text behind a mark and the closing delimiter, blanks being allowed before each. -/
def close? (d : Delimiters) (mark cs : List Char) : Option (List Char) := do
  let cs ← Text.stripLeading? mark (Text.trimLeft cs)
  Text.stripLeading? d.closing (Text.trimLeft cs)

/-- The shortest key, of at least one character, that an ending follows, and what comes after it. -/
def key? (ending : List Char → Option (List Char)) (spansLines : Bool) :
    List Char → Option (List Char × List Char)
  | [] => none
  | c :: cs =>
    if c = '\n' ∧ ¬spansLines then none
    else match ending cs with
      | some rest => some ([c], rest)
      | none => (key? ending spansLines cs).map fun r => (c :: r.1, r.2)

/-- The first of several readings of the rests behind blanks. -/
def behindBlanks? {α : Type} (f : List Char → Option α) (cs : List Char) : Option α :=
  (skips cs).findSome? f

/-- The characters that tell the kind of a tag. -/
def kinds : List Char := "!>&/#^".toList

/-- A tag with a mark on both sides of its key. -/
def marked? (d : Delimiters) (kind opening closing : Char) (cs : List Char) :
    Option (Option Char × List Char × List Char) :=
  match cs with
  | [] => none
  | c :: rest =>
    if c = opening then
      (behindBlanks? (key? (close? d [closing]) false) rest).map fun r => (some kind, r.1, r.2)
    else none

/-- A tag with its kind in front of its key, or without kind. -/
def plain? (d : Delimiters) (cs : List Char) : Option (Option Char × List Char × List Char) :=
  let keyed := fun kind rest =>
    (behindBlanks? (key? (close? d []) true) rest).map fun r => (kind, r.1, r.2)
  match cs with
  | [] => none
  | c :: rest =>
    if kinds.contains c then (keyed (some c) rest).or (keyed none cs) else keyed none cs

/-- The inside of a tag: its kind, its key and what follows it. Braces of their own keep a value
from being escaped, and equals signs change the delimiters. -/
def inside? (d : Delimiters) (cs : List Char) : Option (Option Char × List Char × List Char) :=
  ((marked? d '=' '=' '=' cs).or (marked? d '&' '\x7b' '\x7d' cs)).or (plain? d cs)

/-- The tag at the head of a text, with the blanks before it. -/
def here? (d : Delimiters) (cs : List Char) : Option Tag := do
  let blanks := cs.takeWhile fun c => c == ' ' || c == '\t'
  let rest ← Text.stripLeading? d.opening (cs.drop blanks.length)
  let (kind, key, rest) ← behindBlanks? (inside? d) rest
  some ⟨blanks, kind, key, rest⟩

/-- The first tag in a text, and the text before it. -/
def find? (d : Delimiters) : List Char → Option (List Char × Tag)
  | [] => none
  | c :: cs =>
    match here? d (c :: cs) with
    | some t => some ([], t)
    | none => (find? d cs).map fun r => (c :: r.1, r.2)

/-- Whether a tag stands for a value. -/
def isSlot (t : Tag) : Bool := t.kind == none || t.kind == some '&'

end Tag

/-- A section that is being read: its key, whether it is inverted, the text from its start on, and
the pieces around it, last one first. -/
structure Open where
  inverted : Bool
  start : List Char
  outerKey : Option String
  outer : List Piece

/-- How far a template is read. `rest` is what is still ahead and `fresh` tells whether it starts a
line. -/
structure Reading where
  delimiters : Delimiters
  rest : List Char
  fresh : Bool
  key : Option String
  pieces : List Piece
  stack : List Open

namespace Reading

/-- Whether a character ends a line. -/
def isLineEnd (c : Char) : Bool := c == '\r' || c == '\n'

/-- A text without one line end at its head. -/
def dropLineEnd (cs : List Char) : List Char :=
  match cs with
  | '\r' :: '\n' :: rest => rest
  | '\r' :: rest => rest
  | '\n' :: rest => rest
  | _ => cs

/-- Pieces with a text in front, unless it is empty. -/
def addText (cs : List Char) (pieces : List Piece) : List Piece :=
  if cs.isEmpty then pieces else .text cs :: pieces

/-- The delimiters that words name. -/
def delimiters? (key : List Char) : Except Fault Delimiters :=
  match Text.words key with
  | a :: b :: _ => .ok ⟨a, b⟩
  | _ => .error .delimiters

/-- The reading behind a tag of a template of a length. `source` is where sections that end here
end, and the reading is already moved behind the tag. -/
def step (length : Nat) (source : List Char) (t : Tag) (r : Reading) : Except Fault Reading :=
  let key := String.ofList t.key
  match t.kind with
  | none => .ok { r with pieces := .slot key true :: r.pieces }
  | some '&' => .ok { r with pieces := .slot key false :: r.pieces }
  | some '=' => do .ok { r with delimiters := ← delimiters? t.key }
  | some '/' =>
    match r.stack with
    | o :: stack =>
      if r.key = some key then
        let body := r.pieces.reverse
        let piece :=
          if o.inverted then Piece.inverted key body
          else .block key body (o.start.take (o.start.length - source.length)) r.delimiters
        .ok { r with key := o.outerKey, pieces := piece :: o.outer, stack := stack }
      else .error (.mismatch (length - r.rest.length) key r.key)
    | [] => .error (.mismatch (length - r.rest.length) key r.key)
  | some c =>
    if c = '#' ∨ c = '^' then
      .ok { r with key := some key, pieces := [],
                   stack := ⟨c == '^', r.rest, r.key, r.pieces⟩ :: r.stack }
    else .ok r

/-- The pieces of a template of a length. -/
def run (length : Nat) : Nat → Reading → Except Fault (List Piece)
  | 0, r => .ok (addText r.rest r.pieces).reverse
  | fuel + 1, r =>
    match Tag.find? r.delimiters r.rest with
    | none => .ok (addText r.rest r.pieces).reverse
    | some (before, t) =>
      let opensLine := match before.getLast? with
        | some c => isLineEnd c
        | none => r.fresh
      let closesLine := match t.rest with
        | c :: _ => isLineEnd c
        | [] => true
      let alone := opensLine && closesLine && !t.isSlot
      let text := if alone then before else before ++ t.blanks
      let rest := if alone then dropLineEnd t.rest else t.rest
      let source := r.rest.drop text.length
      let consumed := r.rest.take (r.rest.length - rest.length)
      let fresh := match consumed.getLast? with
        | some c => isLineEnd c
        | none => r.fresh
      let moved :=
        { r with rest := rest, fresh := fresh, pieces := addText text r.pieces }
      match step length source t moved with
      | .error f => .error f
      | .ok r => run length fuel r

end Reading

/-- The pieces of a template. -/
def parse (d : Delimiters) (template : List Char) : Except Fault (List Piece) :=
  Reading.run template.length (template.length + 1)
    { delimiters := d, rest := template, fresh := true, key := none, pieces := [], stack := [] }

end LiveDoc.Mustache
