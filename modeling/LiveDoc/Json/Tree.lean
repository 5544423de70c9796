import LiveDoc.Value.Equality
import LiveDoc.Run

/-!
# JSON trees

A tree keeps every member of an object, repeated keys included, in the order of the text. A value is
made from it bottom up; a hook may replace every object as soon as its members are known.
-/

namespace LiveDoc.Json

/-- What a JSON text says. -/
inductive Tree where
  | null
  | bool (b : Bool)
  | int (n : Int)
  | float (x : Binary64)
  | text (s : String)
  | array (items : List Tree)
  | object (members : List (String × Tree))

namespace Tree

instance : Inhabited Tree := ⟨.null⟩

mutual

/-- The value of a tree: a repeated key keeps its first place and its last value. -/
def toValue : Tree → Value
  | .null => .null
  | .bool b => .bool b
  | .int n => .int n
  | .float x => .float x
  | .text s => .text s
  | .array ts => .list (toValues ts)
  | .object ms => .mapping (Entries.ofPairs (toPairs ms))

/-- The values of a list of trees. -/
def toValues : List Tree → List Value
  | [] => []
  | t :: ts => toValue t :: toValues ts

/-- The keys and values of the members of an object. -/
def toPairs : List (String × Tree) → List (Value × Value)
  | [] => []
  | (k, t) :: ms => (.text k, toValue t) :: toPairs ms

end

mutual

/-- The value of a tree in which a hook has replaced every object, children before their parent and
in the order in which the objects close. -/
def resolve (hook : Value → Run Value) : Tree → Run Value
  | .null => .done .null
  | .bool b => .done (.bool b)
  | .int n => .done (.int n)
  | .float x => .done (.float x)
  | .text s => .done (.text s)
  | .array ts => (resolveList hook ts).andThen fun vs => .done (.list vs)
  | .object ms => (resolveMembers hook ms).andThen fun ps => hook (.mapping (Entries.ofPairs ps))

/-- The same for a list of trees. -/
def resolveList (hook : Value → Run Value) : List Tree → Run (List Value)
  | [] => .done []
  | t :: ts =>
    (resolve hook t).andThen fun v => (resolveList hook ts).andThen fun vs => .done (v :: vs)

/-- The same for the members of an object. -/
def resolveMembers (hook : Value → Run Value) : List (String × Tree) → Run (List (Value × Value))
  | [] => .done []
  | (k, t) :: ms =>
    (resolve hook t).andThen fun v =>
      (resolveMembers hook ms).andThen fun ps => .done ((.text k, v) :: ps)

end

end Tree

end LiveDoc.Json
