import LiveDoc.Number.Decimal
import LiveDoc.Calendar.Moment
import LiveDoc.Value.Routine

/-!
# Values

Everything that a document, its data or a function call can hold. Mappings keep their entries in
insertion order and hold each key once; a function is a routine with the values it has captured.
-/

namespace LiveDoc

/-- The compound objects of the library that can travel as values. -/
inductive RecordKind where
  | config
  | reviver
deriving DecidableEq, Repr

/-- A dynamic value. -/
inductive Value where
  | null
  | bool (b : Bool)
  | int (n : Int)
  | float (x : Binary64)
  | text (s : String)
  | bytes (data : List UInt8)
  | buffer (data : List UInt8)
  | list (items : List Value)
  | tuple (items : List Value)
  | mapping (entries : List (Value × Value))
  | set (members : List Value)
  | date (d : Date)
  | moment (m : Moment)
  | clock (t : ClockTime)
  | span (s : Span)
  | zone (z : Zone)
  | routine (r : Routine) (captured : List Value)
  | deferred (fn label : Value)
  | record (kind : RecordKind) (fields : List Value)

namespace Value

instance : Inhabited Value := ⟨.null⟩

/-- The name of a value's type, and the name under which operators and the compact encoder report
it. The two differ for calendar values. -/
def typeNames : Value → String × String
  | .null => ("NoneType", "NoneType")
  | .bool _ => ("bool", "bool")
  | .int _ => ("int", "int")
  | .float _ => ("float", "float")
  | .text _ => ("str", "str")
  | .bytes _ => ("bytes", "bytes")
  | .buffer _ => ("bytearray", "bytearray")
  | .list _ => ("list", "list")
  | .tuple _ => ("tuple", "tuple")
  | .mapping _ => ("dict", "dict")
  | .set _ => ("set", "set")
  | .date _ => ("date", "datetime.date")
  | .moment _ => ("datetime", "datetime.datetime")
  | .clock _ => ("time", "datetime.time")
  | .span _ => ("timedelta", "datetime.timedelta")
  | .zone _ => ("timezone", "datetime.timezone")
  | .routine r _ => (r.profile.kind, r.profile.kind)
  | .deferred .. => ("Deferred", "Deferred")
  | .record .config _ => ("ReviverConfig", "ReviverConfig")
  | .record .reviver _ => ("Reviver", "Reviver")

/-- The name of a value's type. -/
def typeName (v : Value) : String := v.typeNames.1

/-- The qualified name of a value's type. -/
def qualifiedTypeName (v : Value) : String := v.typeNames.2

/-- Whether a value can be called. -/
def isCallable : Value → Bool
  | .routine .. => true
  | .deferred .. => true
  | .record .reviver _ => true
  | _ => false

/-- Whether a value is text or bytes that a document can be decoded from. -/
def isText : Value → Bool
  | .text _ => true
  | .bytes _ => true
  | .buffer _ => true
  | _ => false

/-- The integer that a value counts as in arithmetic. -/
def integer? : Value → Option Int
  | .bool b => some (if b then 1 else 0)
  | .int n => some n
  | _ => none

/-- Whether a value counts as true. -/
def truthy : Value → Bool
  | .null => false
  | .bool b => b
  | .int n => n != 0
  | .float x => !x.isZero
  | .text s => !s.isEmpty
  | .bytes d => !d.isEmpty
  | .buffer d => !d.isEmpty
  | .list xs => !xs.isEmpty
  | .tuple xs => !xs.isEmpty
  | .mapping es => !es.isEmpty
  | .set xs => !xs.isEmpty
  | .span s => s.micros != 0
  | _ => true

/-- The largest size and index of a sequence. -/
def maxSize : Int := Nat.pow 2 63 - 1

end Value

end LiveDoc
