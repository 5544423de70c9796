import LiveDoc.Yaml.Node
import LiveDoc.Text.Base64
import LiveDoc.Text.Case
import LiveDoc.Value.Equality

/-!
# Values of nodes

A tag decides what a node becomes. Collections are looked through level by level before anything is
built, so that of two faults the one nearer to the root is reported. A merge key brings in the
entries of other mappings, in front of the mapping's own.
-/

namespace LiveDoc.Yaml

namespace Node

/-- The tag of merge keys. -/
def mergeTag : String := Schema.tag "merge"

/-- The tag of keys whose value stands for their mapping. -/
def valueTag : String := Schema.tag "value"

/-- A scalar key of the latter kind, as a plain text. -/
def plainKey (n : Node) : Node :=
  match n with
  | .scalar t s m => if t = valueTag then .scalar (Schema.tag "str") s m else n
  | _ => n

mutual

/-- The levels of a node. -/
def depth : Node → Nat
  | .scalar .. => 1
  | .sequence _ ns _ => 1 + depthOfItems ns
  | .mapping _ es _ => 1 + depthOfEntries es

/-- The levels of the deepest node in a list. -/
def depthOfItems : List Node → Nat
  | [] => 0
  | n :: ns => max (depth n) (depthOfItems ns)

/-- The levels of the deepest key or value. -/
def depthOfEntries : List (Node × Node) → Nat
  | [] => 0
  | (k, v) :: es => max (max (depth k) (depth v)) (depthOfEntries es)

end

/-- A node of a kind that does not fit. -/
def misfit {α : Type} (problem : String → Problem) (n : Node) : Except Halt α :=
  .error (.malformed (.plain (problem n.kind) n.mark))

mutual

/-- The text of a node: that of a scalar, or of the value that stands for a mapping. -/
def content : Node → Except Halt String
  | .scalar _ s _ => .ok s
  | .sequence t ns m => misfit .expectedScalar (.sequence t ns m)
  | .mapping t es m =>
    match standIn? es with
    | some r => r
    | none => misfit .expectedScalar (.mapping t es m)

/-- The text of the value that stands for a mapping with these entries, if there is one. -/
def standIn? : List (Node × Node) → Option (Except Halt String)
  | [] => none
  | (k, v) :: es => if k.tag = valueTag then some (content v) else standIn? es

end

mutual

/-- The entries that the merge keys of a mapping bring in, and the mapping's own. -/
def flatten (start : Mark) :
    List (Node × Node) → Except Halt (List (Node × Node) × List (Node × Node))
  | [] => .ok ([], [])
  | (k, v) :: es =>
    if k.tag = mergeTag then do
      let first ← mergedBy start v
      let (merged, own) ← flatten start es
      .ok (first ++ merged, own)
    else do
      let (merged, own) ← flatten start es
      .ok (merged, (k.plainKey, v) :: own)

/-- The entries that the value of a merge key brings in. Of several mappings the first one comes
last, so that its entries win. -/
def mergedBy (start : Mark) : Node → Except Halt (List (Node × Node))
  | .mapping _ es m => do
    let (merged, own) ← flatten m es
    .ok (merged ++ own)
  | .sequence _ ns _ => do
    let parts ← mergedByAll start ns
    .ok parts.reverse.flatten
  | .scalar _ _ m => .error (.malformed (.within .mapping start (.expectedMerge "scalar") m))

/-- The entries that each of several mappings brings in. -/
def mergedByAll (start : Mark) : List Node → Except Halt (List (List (Node × Node)))
  | [] => .ok []
  | .mapping _ es m :: ns => do
    let (merged, own) ← flatten m es
    let rest ← mergedByAll start ns
    .ok ((merged ++ own) :: rest)
  | .sequence _ _ m :: _ =>
    .error (.malformed (.within .mapping start (.expectedMergeList "sequence") m))
  | .scalar _ _ m :: _ =>
    .error (.malformed (.within .mapping start (.expectedMergeList "scalar") m))

end

/-- The entries of a mapping, merged ones first. -/
def entries : Node → Except Halt (List (Node × Node))
  | .mapping _ es m => do
    let (merged, own) ← flatten m es
    .ok (merged ++ own)
  | n => misfit .expectedMapping n

/-- The items of a sequence. -/
def items : Node → Except Halt (List Node)
  | .sequence _ ns _ => .ok ns
  | n => misfit .expectedSequence n

end Node

namespace Build

/-- A fault of the values themselves. -/
def ofFault {α : Type} : Except LiveDoc.Fault α → Except Halt α
  | .ok a => .ok a
  | .error f => .error (.broken f)

/-- A text without underscores. -/
def withoutMarks (s : String) : String := String.ofList (s.toList.filter (· != '_'))

/-- The sign at the head of a text that is not empty, and what follows it. -/
def signed (s : String) : Except LiveDoc.Fault (Bool × String) :=
  if s.isEmpty then .error (.indexOutOfRange "string")
  else
    let (negative, rest) := Numeral.sign s.toList
    .ok (negative, String.ofList rest)

/-- The parts of a base sixty numeral. -/
def sixtieths (s : String) : List String := (Text.splitAt ':' s.toList).map String.ofList

/-- The truth value of a word. -/
def bool (s : String) : Except LiveDoc.Fault Value :=
  let word := Text.lower s
  if ["yes", "true", "on"].contains word then .ok (.bool true)
  else if ["no", "false", "off"].contains word then .ok (.bool false)
  else .error (.missingKey (Text.literal word))

/-- The magnitude of an integer without sign and underscores. -/
def magnitude (s : String) : Except LiveDoc.Fault Int :=
  match s.toList with
  | ['0'] => .ok 0
  | '0' :: 'b' :: rest => Numeral.integer 2 (String.ofList rest)
  | '0' :: 'x' :: rest => Numeral.integer 16 (String.ofList rest)
  | '0' :: _ => Numeral.integer 8 s
  | [] => .error (.indexOutOfRange "string")
  | cs =>
    if cs.contains ':' then do
      let parts ← (sixtieths s).mapM (Numeral.integer 10)
      .ok (parts.foldl (fun n d => n * 60 + d) 0)
    else Numeral.integer 10 s

/-- The integer that a text writes. -/
def int (s : String) : Except LiveDoc.Fault Value := do
  let (negative, rest) ← signed (withoutMarks s)
  let n ← magnitude rest
  .ok (.int (if negative then -n else n))

/-- The sum of base sixty digits, the least one first, from a power of sixty on. -/
def sumSixtieths : Int → Binary64 → List Binary64 → Except LiveDoc.Fault Binary64
  | _, total, [] => .ok total
  | base, total, d :: ds =>
    match Binary64.ofInt? base with
    | some b => sumSixtieths (base * 60) (total.add (d.mul b)) ds
    | none => .error .integerTooLargeForFloat

/-- The float that a text writes. -/
def float (s : String) : Except LiveDoc.Fault Value := do
  let (negative, rest) ← signed (Text.lower (withoutMarks s))
  let apply := fun (x : Binary64) => Value.float (if negative then x.neg else x)
  if rest = ".inf" then .ok (apply (.infinite false))
  else if rest = ".nan" then .ok (.float .nan)
  else if rest.toList.contains ':' then do
    let parts ← (sixtieths rest).mapM Numeral.float
    .ok (apply (← sumSixtieths 1 (.zero false) parts.reverse))
  else .ok (apply (← Numeral.float rest))

/-- How a text outside ASCII is reported: its first such character, or the run of them. -/
def notAscii (cs : List Char) : String :=
  let start := (cs.takeWhile (·.toNat < 128)).length
  let run := (cs.drop start).takeWhile (128 ≤ ·.toNat)
  let what := match run with
    | [c] => "character '" ++ String.ofList (escapeCode c) ++ "' in position " ++ toString start
    | _ => "characters in position " ++ toString start ++ "-" ++ toString (start + run.length - 1)
  "'ascii' codec can't encode " ++ what ++ ": ordinal not in range(128)"
where
  /-- The code of a character as an escape. -/
  escapeCode (c : Char) : List Char :=
    let n := c.toNat
    if n < 0x100 then '\\' :: 'x' :: Text.hex 2 n
    else if n < 0x10000 then '\\' :: 'u' :: Text.hex 4 n
    else '\\' :: 'U' :: Text.hex 8 n

/-- The bytes that a text in base 64 writes. -/
def binary (mark : Mark) (s : String) : Except Halt Value :=
  if s.toList.all (·.toNat < 128) then
    match Text.Base64.decode s.toList with
    | .ok bytes => .ok (.bytes bytes)
    | .error f => .error (.malformed (.plain (.undecodableBase64 f.text) mark))
  else .error (.malformed (.plain (.notAsciiBase64 (notAscii s.toList)) mark))

/-- The date or moment that a text writes. -/
def timestamp (s : String) : Except LiveDoc.Fault Value :=
  match Timestamp.ofChars? (Schema.withoutFinalBreak s.toList) with
  | none => .error (.noAttribute "NoneType" "groupdict")
  | some t => match t.value with
    | .ok v => .ok v
    | .error f => .error (.calendar f)

/-- The collections that a tag can ask for. -/
inductive Collection where
  | sequence
  | mapping
  | set
  | orderedMap
  | pairs
deriving DecidableEq, Repr

/-- The collection that a tag asks for. -/
def collection? (tag : String) : Option Collection :=
  [ (Schema.tag "seq", .sequence), (Schema.tag "map", .mapping), (Schema.tag "set", .set),
    (Schema.tag "omap", .orderedMap), (Schema.tag "pairs", .pairs) ].lookup tag

/-- The value of a node whose tag asks for no collection. -/
def leaf (n : Node) : Except Halt Value :=
  let tag := n.tag
  if tag = Schema.tag "null" then do
    let _ ← n.content
    .ok .null
  else if tag = Schema.tag "bool" then do ofFault (bool (← n.content))
  else if tag = Schema.tag "int" then do ofFault (int (← n.content))
  else if tag = Schema.tag "float" then do ofFault (float (← n.content))
  else if tag = Schema.tag "binary" then do binary n.mark (← n.content)
  else if tag = Schema.tag "timestamp" then do
    let s ← n.content
    match n with
    | .scalar .. => ofFault (timestamp s)
    | _ =>
      .error (.broken (.chosen .typeError "expected string or bytes-like object, got 'list'"))
  else if tag = Schema.tag "str" then do .ok (.text (← n.content))
  else .error (.malformed (.plain (.unknownTag tag) n.mark))

/-- Looks at a node: a collection is kept for the next level, and anything else must have a value.
-/
def look (n : Node) : Except Halt (List Node) :=
  if (collection? n.tag).isSome then .ok [n]
  else do
    let _ ← leaf n
    .ok []

/-- Looks at nodes in order. -/
def lookAll : List Node → Except Halt (List Node)
  | [] => .ok []
  | n :: ns => do
    let first ← look n
    .ok (first ++ (← lookAll ns))

/-- Looks at the entries of a mapping in order. A collection is no key. -/
def lookEntries (start : Mark) : List (Node × Node) → Except Halt (List Node)
  | [] => .ok []
  | (k, v) :: es => do
    let _ ← look k
    if (collection? k.tag).isSome then
      .error (.malformed (.within .mapping start .unhashableKey k.mark))
    else
      let first ← look v
      .ok (first ++ (← lookEntries start es))

/-- The only entry of an item in an ordered map or a list of pairs. -/
def single (context : Context) (start : Mark) : Node → Except Halt (Node × Node)
  | .mapping _ [e] _ => .ok e
  | .mapping _ es m =>
    .error (.malformed (.within context start (.expectedSingleItem es.length) m))
  | n => .error (.malformed (.within context start (.expectedSingleMapping n.kind) n.mark))

/-- Looks at the items of an ordered map or a list of pairs in order. -/
def lookPairs (context : Context) (start : Mark) : List Node → Except Halt (List Node)
  | [] => .ok []
  | n :: ns => do
    let (k, v) ← single context start n
    let first ← look k
    let second ← look v
    .ok (first ++ second ++ (← lookPairs context start ns))

/-- The items of an ordered map or a list of pairs. -/
def pairItems (context : Context) : Node → Except Halt (List Node)
  | .sequence _ ns _ => .ok ns
  | n => .error (.malformed (.within context n.mark (.expectedSequenceOnly n.kind) n.mark))

/-- Looks into a collection. -/
def lookInto (n : Node) : Except Halt (List Node) :=
  match collection? n.tag with
  | none => .ok []
  | some .sequence => do lookAll (← n.items)
  | some .mapping => do lookEntries n.mark (← n.entries)
  | some .set => do lookEntries n.mark (← n.entries)
  | some .orderedMap => do lookPairs .orderedMap n.mark (← pairItems .orderedMap n)
  | some .pairs => do lookPairs .pairs n.mark (← pairItems .pairs n)

/-- Looks into the collections of a level, in order. -/
def lookIntoAll : List Node → Except Halt (List Node)
  | [] => .ok []
  | n :: ns => do
    let first ← lookInto n
    .ok (first ++ (← lookIntoAll ns))

/-- Looks through collections, level by level. -/
def lookThrough : Nat → List Node → Except Halt Unit
  | 0, _ => .ok ()
  | fuel + 1, ns =>
    if ns.isEmpty then .ok ()
    else do lookThrough fuel (← lookIntoAll ns)

/-- Whether two keys of a mapping are the same: they are equal, or neither is a number. -/
def sameKey (a b : Value) : Bool :=
  match a, b with
  | .float .nan, .float .nan => true
  | _, _ => a.eqv b

/-- The entries with a value under a key. -/
def insert (key value : Value) : Entries → Entries
  | [] => [(key, value)]
  | e :: es => if sameKey key e.1 then (e.1, value) :: es else e :: insert key value es

/-- The entries of a mapping with the values that `f` gives them, added to those before them. -/
def addEntries (f : Node → Except Halt Value) :
    List (Node × Node) → Entries → Except Halt Entries
  | [], before => .ok before
  | (k, v) :: es, before => do
    let key ← f k
    let item ← f v
    addEntries f es (insert key item before)

/-- The items of an ordered map or a list of pairs with the values that `f` gives them. -/
def tuples (f : Node → Except Halt Value) (context : Context) (start : Mark) :
    List Node → Except Halt (List Value)
  | [] => .ok []
  | n :: ns => do
    let (k, v) ← single context start n
    let key ← f k
    let item ← f v
    .ok (.tuple [key, item] :: (← tuples f context start ns))

/-- The value of a node of at most as many levels as the first argument says. -/
def value : Nat → Node → Except Halt Value
  | 0, _ => .error (.broken .callDepth)
  | fuel + 1, n =>
    match collection? n.tag with
    | none => leaf n
    | some .sequence => do .ok (.list (← (← n.items).mapM (value fuel)))
    | some .mapping => do .ok (.mapping (← addEntries (value fuel) (← n.entries) []))
    | some .set => do .ok (.set ((← addEntries (value fuel) (← n.entries) []).map (·.1)))
    | some .orderedMap => do
      .ok (.list (← tuples (value fuel) .orderedMap n.mark (← pairItems .orderedMap n)))
    | some .pairs => do
      .ok (.list (← tuples (value fuel) .pairs n.mark (← pairItems .pairs n)))

/-- The value of the root of a document. -/
def document (n : Node) : Except Halt Value := do
  let level ← look n
  lookThrough (n.depth + 1) level
  value (n.depth + 1) n

end Build

/-- The value of the only document in a text; an empty text stands for nothing. -/
def read (text : List Char) (half : Char := '\uFFFD') : Except Halt Value := do
  match ← document? text half with
  | none => .ok .null
  | some n => Build.document n

/-- The value that a text writes, `half` standing for a lone surrogate. -/
def decode (s : String) (half : Char := '\uFFFD') : Except Failure Value :=
  match read s.toList half with
  | .ok v => .ok v
  | .error (.malformed f) => .error (.parse (.yaml s.toList f))
  | .error (.broken f) => .error (.fault f)

end LiveDoc.Yaml
