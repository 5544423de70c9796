import LiveDoc.Value.Basic

/-!
# Equality, hashing and mappings

Numbers are equal across their types, a NaN equals nothing, and mappings compare without regard to
order. A mapping replaces the value of a key that it already holds and keeps the key's place.
-/

namespace LiveDoc

namespace Value

mutual

/-- Whether two values are equal. -/
def eqv : Value → Value → Bool
  | .null, .null => true
  | .bool a, .bool b => a == b
  | .bool a, .int n => (if a then 1 else 0) == n
  | .bool a, .float x => x.eqvInt (if a then 1 else 0)
  | .int n, .bool a => (if a then 1 else 0) == n
  | .int m, .int n => m == n
  | .int n, .float x => x.eqvInt n
  | .float x, .bool a => x.eqvInt (if a then 1 else 0)
  | .float x, .int n => x.eqvInt n
  | .float x, .float y => x.eqv y
  | .text a, .text b => a == b
  | .bytes a, .bytes b => a == b
  | .bytes a, .buffer b => a == b
  | .buffer a, .bytes b => a == b
  | .buffer a, .buffer b => a == b
  | .list xs, .list ys => eqvList xs ys
  | .tuple xs, .tuple ys => eqvList xs ys
  | .mapping es, .mapping fs => es.length == fs.length && eqvEntries es fs
  | .set xs, .set ys => xs.length == ys.length && subset xs ys
  | .date a, .date b => a == b
  | .moment a, .moment b => a.same b
  | .clock a, .clock b =>
    a.zone.isSome == b.zone.isSome &&
      (a.micros : Int) - (a.zone.map (·.offset)).getD 0 ==
        (b.micros : Int) - (b.zone.map (·.offset)).getD 0
  | .span a, .span b => a == b
  | .zone a, .zone b => a == b
  | .routine r xs, .routine s ys => r == s && eqvList xs ys
  | .deferred f a, .deferred g b => eqv f g && eqv a b
  | .record k xs, .record l ys => k == l && eqvList xs ys
  | _, _ => false
termination_by structural x => x

/-- Whether two lists hold equal values in the same order. -/
def eqvList : List Value → List Value → Bool
  | [], [] => true
  | x :: xs, y :: ys => eqv x y && eqvList xs ys
  | _, _ => false
termination_by structural x => x

/-- Whether every member of one list equals some member of another. -/
def subset : List Value → List Value → Bool
  | [], _ => true
  | x :: xs, ys => ys.any (fun y => eqv x y) && subset xs ys
termination_by structural x => x

/-- Whether every entry of one list has an equal entry in another. -/
def eqvEntries : List (Value × Value) → List (Value × Value) → Bool
  | [], _ => true
  | (k, v) :: es, fs => fs.any (fun f => eqv k f.1 && eqv v f.2) && eqvEntries es fs
termination_by structural x => x

end

mutual

/-- The qualified name of the type that keeps a value from being a key, if there is one: only values
that cannot change are keys. -/
def unhashable? : Value → Option String
  | .buffer d => some (Value.buffer d).qualifiedTypeName
  | .list xs => some (Value.list xs).qualifiedTypeName
  | .mapping es => some (Value.mapping es).qualifiedTypeName
  | .set xs => some (Value.set xs).qualifiedTypeName
  | .record .config fs => some (Value.record .config fs).qualifiedTypeName
  | .tuple xs => unhashableIn? xs
  | _ => none

/-- The first such name in a list. -/
def unhashableIn? : List Value → Option String
  | [] => none
  | x :: xs => (unhashable? x).or (unhashableIn? xs)

end

end Value

/-- The entries of a mapping. -/
abbrev Entries := List (Value × Value)

namespace Entries

/-- The value under a key. -/
def get? (es : Entries) (key : Value) : Option Value := (es.find? fun e => key.eqv e.1).map (·.2)

/-- The entries with a value under a key: in the key's place if it is there, else at the end. -/
def insert (key value : Value) : Entries → Entries
  | [] => [(key, value)]
  | e :: es => if key.eqv e.1 then (e.1, value) :: es else e :: insert key value es

/-- The entries built from pairs, one after the other. -/
def ofPairs (pairs : List (Value × Value)) : Entries :=
  pairs.foldl (fun es p => insert p.1 p.2 es) []

/-- The value under a text key. -/
def text? (es : Entries) (key : String) : Option Value := get? es (.text key)

end Entries

end LiveDoc
