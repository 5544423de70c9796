import LiveDoc.Value.Equality
import LiveDoc.Failure

/-!
# Subscripts and iteration

A mapping is read by key, a sequence by an integer that may count from its end. A sequence yields
its items, a mapping its keys, and a text its characters.
-/

namespace LiveDoc

namespace Value

/-- The item of a list at an index that may count from the end. -/
def at? {α : Type} (xs : List α) (i : Int) : Option α :=
  let k := if i < 0 then i + xs.length else i
  if k < 0 then none else xs[k.toNat]?

/-- The item of a sequence at an index: `misfit` is the fault of an index that is no integer, and
`name` what the sequence is called when the index is out of range. -/
def itemAt {α : Type} (xs : List α) (index : Value) (misfit : Fault) (name : String) :
    Except Fault α :=
  match index.integer? with
  | none => .error misfit
  | some i =>
    if i < -maxSize - 1 ∨ maxSize < i then .error .indexSizeAsIndex
    else match at? xs i with
      | some x => .ok x
      | none => .error (.indexOutOfRange name)

/-- The value under a key, which must be hashable. -/
def lookupKey (es : Entries) (key : Value) : Except Fault (Option Value) :=
  match key.unhashable? with
  | some t => .error (.unhashable t)
  | none => .ok (es.get? key)

/-- What a value holds under a subscript. -/
def subscript (v index : Value) : Except Fault Value :=
  match v with
  | .mapping es => do
    match ← lookupKey es index with
    | some x => .ok x
    | none => .error (.saying .keyError index index.source)
  | .list xs => itemAt xs index (.sequenceIndices "list" index.qualifiedTypeName) "list"
  | .tuple xs => itemAt xs index (.sequenceIndices "tuple" index.qualifiedTypeName) "tuple"
  | .text s => do
    let c ← itemAt s.toList index (.textIndices index.qualifiedTypeName) "string"
    .ok (.text (String.ofList [c]))
  | .bytes d => do
    let b ← itemAt d index (.sequenceIndices "byte" index.qualifiedTypeName) ""
    .ok (.int b.toNat)
  | .buffer d => do
    let b ← itemAt d index (.sequenceIndices "bytearray" index.qualifiedTypeName) "bytearray"
    .ok (.int b.toNat)
  | _ => .error (.notSubscriptable v.qualifiedTypeName)

/-- What a value yields when it is gone through, if it can be. -/
def items? : Value → Option (List Value)
  | .list xs => some xs
  | .tuple xs => some xs
  | .set xs => some xs
  | .mapping es => some (es.map (·.1))
  | .text s => some (s.toList.map fun c => .text (String.ofList [c]))
  | .bytes d => some (d.map fun b => .int b.toNat)
  | .buffer d => some (d.map fun b => .int b.toNat)
  | _ => none

/-- What a value yields when it is gone through. -/
def items (v : Value) : Except Fault (List Value) :=
  match v.items? with
  | some xs => .ok xs
  | none => .error (.notIterable v.qualifiedTypeName)

/-- Adds to a mapping the pairs that a sequence holds, `index` being that of the first. -/
def addPairs : Nat → List Value → Entries → Except Fault Entries
  | _, [], es => .ok es
  | index, x :: xs, es =>
    match x.items? with
    | none => .error (.pairConversion index)
    | some [k, v] =>
      match k.unhashable? with
      | some t => .error (.unhashable t)
      | none => addPairs (index + 1) xs (es.insert k v)
    | some other => .error (.pairLength index other.length)

/-- The entries of a mapping, or those that a sequence of pairs makes. -/
def toEntries : Value → Except Fault Entries
  | .mapping es => .ok es
  | v => do addPairs 0 (← v.items) []

end Value

end LiveDoc
