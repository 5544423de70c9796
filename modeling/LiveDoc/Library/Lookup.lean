import LiveDoc.Value.Attribute
import LiveDoc.Value.Sequence
import LiveDoc.Number.Numeral
import LiveDoc.Run

/-!
# Lookup

A label is a key of a mapping, an index into a list, or an attribute of anything else. What is
absent is nothing; only labels that cannot be looked up at all are faults. Which attributes a value
has, and what its methods do, is up to the language that values come from, and taken as given.
-/

namespace LiveDoc

namespace Value

/-- The integer that bytes write as text. -/
def integerOfBytes? (bs : List UInt8) : Option Int :=
  if bs.all (· < 128) then
    (Numeral.integer 10 (String.ofList (bs.map fun b => Char.ofNat b.toNat))).toOption
  else none

/-- The index that a label stands for, if it stands for one. -/
def index? (label : Value) : Except Fault (Option Int) :=
  match label with
  | .float .nan => .ok none
  | .float x => match x.truncate? with
    | some n => .ok (some n)
    | none => .error .floatInfinityToInteger
  | .text s => .ok (Numeral.integer 10 s).toOption
  | .bytes bs => .ok (integerOfBytes? bs)
  | .buffer bs => .ok (integerOfBytes? bs)
  | v => .ok v.integer?

/-- The item at the index that a label stands for. -/
def itemUnder (xs : List Value) (label : Value) : Except Fault Value := do
  match ← index? label with
  | some i => .ok ((at? xs i).getD .null)
  | none => .ok .null

/-- The methods that a lookup finds. -/
def method? (v : Value) (name : String) : Option MethodName :=
  match v with
  | .text _ => if name = "join" then some .join else if name = "upper" then some .upper else none
  | .moment _ => if name = "date" then some .date else none
  | _ => none

/-- The attribute of a name, or nothing. -/
def named (v : Value) (name : String) : Value :=
  match v.part? name, v.method? name with
  | some p, _ => p
  | none, some m => .routine (.method m) [v]
  | none, none => .null

end Value

/-- The attributes of values: how they are found by name, nothing standing for those that are not
there, and what a method comes to for the values it has captured and its arguments. -/
structure Attributes where
  find : Value → String → Value
  call : String → List Value → List Value → Run Value

/-- The attributes that are listed here, with no methods but those of which more is known. -/
def Attributes.listed : Attributes := ⟨Value.named, fun _ _ _ => .done .null⟩

namespace Value

/-- What a value holds under a label. -/
def lookUp (v label : Value) (attributes : Attributes := .listed) : Except Fault Value :=
  match v, label with
  | .mapping es, label => do .ok ((← lookupKey es label).getD .null)
  | .list xs, label => itemUnder xs label
  | .tuple xs, label => itemUnder xs label
  | .null, _ => .ok .null
  | v, .text name => .ok (attributes.find v name)
  | _, _ => .ok .null

end Value

end LiveDoc
