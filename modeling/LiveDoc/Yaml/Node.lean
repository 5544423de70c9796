import LiveDoc.Yaml.Event
import LiveDoc.Yaml.Schema

/-!
# Nodes

A node is a piece of a document whose tag is known. An alias stands for the node of its anchor,
which must come before it; no two nodes of a document share an anchor.
-/

namespace LiveDoc.Yaml

/-- A piece of a document: its tag, its content and the place where it starts. -/
inductive Node where
  | scalar (tag text : String) (mark : Mark)
  | sequence (tag : String) (items : List Node) (mark : Mark)
  | mapping (tag : String) (entries : List (Node × Node)) (mark : Mark)

namespace Node

instance : Inhabited Node := ⟨.scalar "" "" {}⟩

/-- The tag of a node. -/
def tag : Node → String
  | .scalar t _ _ => t
  | .sequence t _ _ => t
  | .mapping t _ _ => t

/-- The place where a node starts. -/
def mark : Node → Mark
  | .scalar _ _ m => m
  | .sequence _ _ m => m
  | .mapping _ _ m => m

/-- The name of a kind of node. -/
def kind : Node → String
  | .scalar .. => "scalar"
  | .sequence .. => "sequence"
  | .mapping .. => "mapping"

end Node

/-- An anchor: its place, and its node unless that is still open. -/
structure Anchor where
  name : String
  mark : Mark
  node : Option Node

/-- The events ahead, and the anchors before them. -/
structure Composing where
  events : List Event
  halt : Option Halt
  anchors : List Anchor := []

namespace Composing

/-- The next event. -/
def peek (c : Composing) : Except Halt Event :=
  match c.events, c.halt with
  | e :: _, _ => .ok e
  | [], some h => .error h
  | [], none => .ok ⟨.streamEnd, {}⟩

/-- What is behind the next event. -/
def advance (c : Composing) : Composing := { c with events := c.events.tail }

/-- Takes note of an anchor whose node starts at a place. -/
def openAnchor (c : Composing) (anchor : Option String) (mark : Mark) : Except Halt Composing :=
  match anchor with
  | none => .ok c
  | some name =>
    match c.anchors.find? (·.name == name) with
    | some a => .error (.malformed (.within (.duplicateAnchor name) a.mark .secondOccurrence mark))
    | none => .ok { c with anchors := ⟨name, mark, none⟩ :: c.anchors }

/-- Takes note of the node of an anchor. -/
def closeAnchor (c : Composing) (anchor : Option String) (n : Node) : Composing :=
  match anchor with
  | none => c
  | some name => { c with anchors := ⟨name, n.mark, some n⟩ :: c.anchors }

/-- The node of an alias. -/
def resolve (c : Composing) (name : String) (mark : Mark) : Except Halt Node :=
  match c.anchors.find? (·.name == name) with
  | none => .error (.malformed (.plain (.undefinedAlias name) mark))
  | some ⟨_, _, some n⟩ => .ok n
  | some ⟨_, _, none⟩ => .error (.broken .callDepth)

/-- The tag that a tagging gives to a node. -/
def tagOf (tagging : Tagging) (byText : String) (byKind : String) : String :=
  match tagging with
  | .named t => t
  | .byText => byText
  | .byKind => Schema.tag byKind

mutual

/-- The node ahead. -/
def node : Nat → Composing → Except Halt (Node × Composing)
  | 0, c => do
    let e ← c.peek
    .ok (.scalar (Schema.tag "null") "" e.mark, c)
  | fuel + 1, c => do
    let e ← c.peek
    match e.kind with
    | .alias name => .ok (← c.resolve name e.mark, c.advance)
    | .scalar anchor tagging text =>
      let c ← c.openAnchor anchor e.mark
      let n := Node.scalar (tagOf tagging (Schema.tagOf text) "str") text e.mark
      .ok (n, c.advance.closeAnchor anchor n)
    | .sequenceStart anchor tagging =>
      let c ← c.openAnchor anchor e.mark
      let (ns, c) ← items fuel c.advance
      let n := Node.sequence (tagOf tagging "" "seq") ns e.mark
      .ok (n, c.closeAnchor anchor n)
    | .mappingStart anchor tagging =>
      let c ← c.openAnchor anchor e.mark
      let (ns, c) ← entries fuel c.advance
      let n := Node.mapping (tagOf tagging "" "map") ns e.mark
      .ok (n, c.closeAnchor anchor n)
    | _ => .ok (.scalar (Schema.tag "null") "" e.mark, c.advance)

/-- The items of a sequence up to its end. -/
def items : Nat → Composing → Except Halt (List Node × Composing)
  | 0, c => .ok ([], c)
  | fuel + 1, c => do
    let e ← c.peek
    if e.kind = .sequenceEnd then .ok ([], c.advance)
    else
      let (n, c) ← node fuel c
      let (ns, c) ← items fuel c
      .ok (n :: ns, c)

/-- The entries of a mapping up to its end. -/
def entries : Nat → Composing → Except Halt (List (Node × Node) × Composing)
  | 0, c => .ok ([], c)
  | fuel + 1, c => do
    let e ← c.peek
    if e.kind = .mappingEnd then .ok ([], c.advance)
    else
      let (k, c) ← node fuel c
      let (v, c) ← node fuel c
      let (es, c) ← entries fuel c
      .ok ((k, v) :: es, c)

end

/-- The only document of a stream behind its start, if there is one. -/
def document? (c : Composing) : Except Halt (Option Node) := do
  let e ← c.peek
  if e.kind = .streamEnd then .ok none
  else
    let (n, c) ← node (2 * c.events.length + 2) c.advance
    let _ ← c.peek
    let e ← c.advance.peek
    if e.kind = .streamEnd then .ok (some n)
    else .error (.malformed (.within .singleDocument n.mark .anotherDocument e.mark))

end Composing

/-- The node of the only document in a text, if there is one. -/
def document? (text : List Char) (half : Char := '\uFFFD') : Except Halt (Option Node) := do
  let s := events text half
  let c : Composing := { events := s.items, halt := s.halt }
  let _ ← c.peek
  c.advance.document?

end LiveDoc.Yaml
