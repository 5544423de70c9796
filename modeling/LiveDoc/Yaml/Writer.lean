import LiveDoc.Yaml.Node
import LiveDoc.Yaml.Style
import LiveDoc.Text.Base64
import LiveDoc.Value.Show

/-!
# Writing YAML

A value becomes a node, and a node becomes lines in block style: entries and items stand on lines of
their own, and only empty collections have brackets. Sequences within mappings are not indented.
-/

namespace LiveDoc.Yaml

namespace Node

/-- A scalar of a standard type. -/
def ofText (name text : String) : Node := .scalar (Schema.tag name) text {}

/-- The text of a float. One without a fraction gets one, so that it does not read as a string. -/
def floatText (x : Binary64) : String :=
  match x with
  | .nan => ".nan"
  | .infinite s => if s then "-.inf" else ".inf"
  | .finite .. =>
    let cs := x.text.toList
    if cs.contains '.' || !cs.contains 'e' then x.text
    else String.ofList (cs.takeWhile (· != 'e') ++ ".0".toList ++ cs.dropWhile (· != 'e'))

/-- The text of bytes: lines of base 64. -/
def bytesText (bs : List UInt8) : String := String.ofList (Text.Base64.encodeLines bs.length bs)

mutual

/-- The node of a value. Values outside the standard types have none. -/
def ofValue : Value → Except Failure Node
  | .null => .ok (ofText "null" "null")
  | .bool b => .ok (ofText "bool" (if b then "true" else "false"))
  | .int n =>
    if Value.isOversized n then .error (.fault .oversizedInteger)
    else .ok (ofText "int" (toString n))
  | .float x => .ok (ofText "float" (floatText x))
  | .text s => .ok (ofText "str" s)
  | .bytes bs => .ok (ofText "binary" (bytesText bs))
  | .date d => .ok (ofText "timestamp" d.text)
  | .moment m => .ok (ofText "timestamp" (m.textWith " "))
  | .list xs => do .ok (.sequence (Schema.tag "seq") (← ofValues xs) {})
  | .tuple xs => do .ok (.sequence (Schema.tag "seq") (← ofValues xs) {})
  | .mapping es => do .ok (.mapping (Schema.tag "map") (← ofEntries es) {})
  | .set xs => do .ok (.mapping (Schema.tag "set") (← ofMembers xs) {})
  | v => .error (.encode (.yamlObject v.source))

/-- The nodes of a list of values. -/
def ofValues : List Value → Except Failure (List Node)
  | [] => .ok []
  | x :: xs => do
    let n ← ofValue x
    .ok (n :: (← ofValues xs))

/-- The nodes of the entries of a mapping. -/
def ofEntries : List (Value × Value) → Except Failure (List (Node × Node))
  | [] => .ok []
  | (k, v) :: es => do
    let key ← ofValue k
    let item ← ofValue v
    .ok ((key, item) :: (← ofEntries es))

/-- The entries that stand for the members of a set. -/
def ofMembers : List Value → Except Failure (List (Node × Node))
  | [] => .ok []
  | x :: xs => do
    let key ← ofValue x
    .ok ((key, ofText "null" "null") :: (← ofMembers xs))

end

end Node

namespace Writer

/-- A tag as it is written. -/
def tagText (tag : String) : List Char :=
  match Text.stripLeading? (Schema.tag "").toList tag.toList with
  | some name => '!' :: '!' :: name
  | none => '!' :: '<' :: tag.toList ++ ['>']

/-- The lines of a scalar from a column on, with its tag if the text does not show it. -/
def scalar (inKey : Bool) (column margin : Nat) (tag text : String) : Lines :=
  let style := Style.choose tag text inKey
  let shown :=
    if style = .plain then Schema.tagOf text = tag else tag = Schema.tag "str"
  let label := if shown then [] else tagText tag ++ [' ']
  (style.lines (!inKey) (column + label.length) margin text.toList).lead label

/-- The longest key, its tag included, that needs no mark. -/
def maxSimpleKey : Nat := 127

/-- Whether a node may be a key without a mark. -/
def isSimpleKey : Node → Bool
  | .scalar t s _ =>
    (tagText t).length + s.length ≤ maxSimpleKey && !s.isEmpty && !Style.isMultiline s.toList
  | .sequence t ns _ => (tagText t).length ≤ maxSimpleKey && ns.isEmpty
  | .mapping t es _ => (tagText t).length ≤ maxSimpleKey && es.isEmpty

/-- The tag of a collection, if it is not that of its kind. -/
def label? (tag name : String) : Option (List Char) :=
  if tag = Schema.tag name then none else some (tagText tag)

/-- A line of a block within another block. -/
def indent (line : List Char) : List Char := if line.isEmpty then [] else ' ' :: ' ' :: line

/-- An empty collection with its tag. -/
def bracketed (label : Option (List Char)) (brackets : List Char) : Lines :=
  match label with
  | none => ⟨brackets, []⟩
  | some l => ⟨l ++ ' ' :: brackets, []⟩

/-- The lines of a block that starts where its tag, if it has one, ends. -/
def labelled (label : Option (List Char)) (block : List (List Char)) : Lines :=
  match label, block with
  | some l, block => ⟨l, block⟩
  | none, [] => ⟨[], []⟩
  | none, line :: rest => ⟨line, rest⟩

/-- The lines of a node behind an indicator, with the lines after the first indented. -/
def behind (indicator : Char) (l : Lines) : List (List Char) :=
  (indicator :: ' ' :: l.first) :: l.rest.map indent

/-- The brackets of an empty sequence. -/
def squareBrackets : List Char := ['[', ']']

/-- The brackets of an empty mapping. -/
def curlyBrackets : List Char := ['\x7b', '\x7d']

/-- The line of a key that needs no mark. -/
def keyLine (column : Nat) : Node → List Char
  | .scalar t s _ => (scalar true column column t s).first
  | .sequence t _ _ => (bracketed (label? t "seq") squareBrackets).first
  | .mapping t _ _ => (bracketed (label? t "map") curlyBrackets).first

mutual

/-- The lines of a node that starts at a column, within a block at the same column. -/
def node (column : Nat) : Node → Lines
  | .scalar t s _ => scalar false column column t s
  | .sequence t [] _ => bracketed (label? t "seq") squareBrackets
  | .sequence t (n :: ns) _ => labelled (label? t "seq") (items column (n :: ns))
  | .mapping t [] _ => bracketed (label? t "map") curlyBrackets
  | .mapping t (e :: es) _ => labelled (label? t "map") (entries column (e :: es))

/-- The lines of the items of a sequence. -/
def items (column : Nat) : List Node → List (List Char)
  | [] => []
  | n :: ns => behind '-' (node (column + 2) n) ++ items column ns

/-- The lines of the value of a key without a mark, whose line ends at a column. -/
def value (column after : Nat) : Node → Lines
  | .scalar t s _ =>
    let l := scalar false (after + 1) (column + 2) t s
    ⟨' ' :: l.first, l.rest.map indent⟩
  | .sequence t [] _ => (bracketed (label? t "seq") squareBrackets).lead [' ']
  | .sequence t (n :: ns) _ =>
    match label? t "seq" with
    | none => ⟨[], items column (n :: ns)⟩
    | some l => ⟨' ' :: l, items column (n :: ns)⟩
  | .mapping t [] _ => (bracketed (label? t "map") curlyBrackets).lead [' ']
  | .mapping t (e :: es) _ =>
    match label? t "map" with
    | none => ⟨[], (entries (column + 2) (e :: es)).map indent⟩
    | some l => ⟨' ' :: l, (entries (column + 2) (e :: es)).map indent⟩

/-- The lines of the entries of a mapping. -/
def entries (column : Nat) : List (Node × Node) → List (List Char)
  | [] => []
  | (k, v) :: es =>
    (if isSimpleKey k then
      let line := keyLine column k ++ [':']
      ((value column (column + line.length) v).lead line).toList
    else behind '?' (node (column + 2) k) ++ behind ':' (node (column + 2) v)) ++
    entries column es

end

/-- The lines of a document. A plain text at its root is closed by a document end. -/
def document : Node → List (List Char)
  | .scalar t s _ =>
    let l := scalar false 0 2 t s
    l.first :: l.rest.map indent ++
      if Style.choose t s false = .plain then ["...".toList] else []
  | .sequence t [] m => (node 0 (.sequence t [] m)).toList
  | .sequence t (n :: ns) m => (node 0 (.sequence t (n :: ns) m)).toList
  | .mapping t es m => (node 0 (.mapping t es m)).toList

end Writer

/-- The text of a value, in block style. -/
def write (v : Value) : Except Failure String := do
  let n ← Node.ofValue v
  .ok (String.ofList ((Writer.document n).flatMap fun line => line ++ ['\n']))

end LiveDoc.Yaml
