import LiveDoc.Value.Equality
import LiveDoc.Failure

/-!
# Arithmetic on values

Numbers mix freely, an integer that meets a binary64 number being rounded to one. Sequences of one
type concatenate and repeat, spans add to dates and scale, and moments subtract if both or neither
has an offset. Everything else reports the operator and the two types.
-/

namespace LiveDoc

namespace Value

/-- The fault of an operator that does not apply. -/
def inapplicable (operator : String) (a b : Value) : Except Fault Value :=
  .error (.operands operator a.qualifiedTypeName b.qualifiedTypeName)

/-- A number as a binary64 number. -/
def toFloat (v : Value) : Except Fault Binary64 :=
  match v with
  | .float x => .ok x
  | _ => match v.integer? with
    | some n => match Binary64.ofInt? n with
      | some x => .ok x
      | none => .error .integerTooLargeForFloat
    | none => .error .integerTooLargeForFloat

/-- Whether a value is a number. -/
def isNumber (v : Value) : Bool :=
  match v with
  | .float _ => true
  | _ => v.integer?.isSome

/-- An operation on numbers: exact on integers, rounded otherwise. -/
def onNumbers (exact : Int → Int → Int) (rounded : Binary64 → Binary64 → Binary64)
    (a b : Value) : Except Fault Value :=
  match a.integer?, b.integer? with
  | some m, some n => .ok (.int (exact m n))
  | _, _ => do
    let x ← a.toFloat
    let y ← b.toFloat
    .ok (.float (rounded x y))

/-- A span as a value. -/
def ofSpan (r : Except SpanFault Span) : Except Fault Value :=
  match r with
  | .ok s => .ok (.span s)
  | .error f => .error (.span f)

/-- A moment as a value, unless the calendar does not reach it. -/
def ofMoment (m : Option Moment) : Except Fault Value :=
  match m with
  | some m => .ok (.moment m)
  | none => .error .dateOutOfRange

/-- The date a number of days after another one. -/
def shiftDate (d : Date) (days : Int) : Except Fault Value :=
  match Date.ofNumber? (d.number + days) with
  | some e => .ok (.date e)
  | none => .error .dateOutOfRange

/-- The sum or concatenation of two values. -/
def add (a b : Value) : Except Fault Value :=
  if a.isNumber && b.isNumber then onNumbers (· + ·) Binary64.add a b
  else match a, b with
    | .moment m, .span s => ofMoment (m.add? s)
    | .span s, .moment m => ofMoment (m.add? s)
    | .date d, .span s => shiftDate d s.days
    | .span s, .date d => shiftDate d s.days
    | .span s, .span t => ofSpan (s.add t)
    | .text s, .text t => .ok (.text (s ++ t))
    | .text _, b => .error (.concatenation "str" b.qualifiedTypeName)
    | .list xs, .list ys => .ok (.list (xs ++ ys))
    | .list _, b => .error (.concatenation "list" b.qualifiedTypeName)
    | .tuple xs, .tuple ys => .ok (.tuple (xs ++ ys))
    | .tuple _, b => .error (.concatenation "tuple" b.qualifiedTypeName)
    | .bytes x, .bytes y => .ok (.bytes (x ++ y))
    | .bytes x, .buffer y => .ok (.bytes (x ++ y))
    | .bytes _, b => .error (.byteConcatenation "bytes" b.qualifiedTypeName)
    | .buffer x, .bytes y => .ok (.buffer (x ++ y))
    | .buffer x, .buffer y => .ok (.buffer (x ++ y))
    | .buffer _, b => .error (.byteConcatenation "bytearray" b.qualifiedTypeName)
    | a, b => inapplicable "+" a b

/-- The difference of two values. -/
def sub (a b : Value) : Except Fault Value :=
  if a.isNumber && b.isNumber then onNumbers (· - ·) Binary64.sub a b
  else match a, b with
    | .moment m, .moment n =>
      if m.zone.isSome = n.zone.isSome then .ok (.span ⟨m.instant - n.instant⟩)
      else .error .mixedOffsets
    | .moment m, .span s => ofMoment (m.sub? s)
    | .date d, .date e => .ok (.span ⟨((d.number : Int) - e.number) * Calendar.microsPerDay⟩)
    | .date d, .span s => shiftDate d (-s.days)
    | .span s, .span t => ofSpan (s.sub t)
    | .set xs, .set ys => .ok (.set (xs.filter fun x => !ys.any (x.eqv ·)))
    | a, b => inapplicable "-" a b

/-- The most items that a repetition builds. -/
def maxRepeated : Int := 1000000000

/-- How often a sequence of a length is repeated; a negative count counts as zero. -/
def repetitions (length : Nat) (isText : Bool) (count : Value) : Except Fault Nat :=
  match count.integer? with
  | none => .error (.repetition count.qualifiedTypeName)
  | some n =>
    if n < -maxSize - 1 ∨ maxSize < n then .error .indexSize
    else if length = 0 then .ok 0
    else if maxSize < n * length then .error (if isText then .repeatedTooLong else .outOfMemory)
    else if maxRepeated < n * length then .error .outOfMemory
    else .ok n.toNat

/-- A list repeated. -/
def repeated {α : Type} (n : Nat) (xs : List α) : List α := (List.replicate n xs).flatten

/-- The repetition of a sequence. -/
def repetition? (sequence count : Value) : Option (Except Fault Value) :=
  match sequence with
  | .text s => some do
    let n ← repetitions s.length true count
    .ok (.text (String.ofList (repeated n s.toList)))
  | .list xs => some do
    let n ← repetitions xs.length false count
    .ok (.list (repeated n xs))
  | .tuple xs => some do
    let n ← repetitions xs.length false count
    .ok (.tuple (repeated n xs))
  | .bytes d => some do
    let n ← repetitions d.length false count
    .ok (.bytes (repeated n d))
  | .buffer d => some do
    let n ← repetitions d.length false count
    .ok (.buffer (repeated n d))
  | _ => none

/-- The product of two values; a sequence is repeated by its count on either side. -/
def mul (a b : Value) : Except Fault Value :=
  if a.isNumber && b.isNumber then onNumbers (· * ·) Binary64.mul a b
  else match a, b with
    | .span s, .float x => ofSpan (s.mulFloat x)
    | .float x, .span s => ofSpan (s.mulFloat x)
    | a, b =>
      match a, b.integer?, b, a.integer? with
      | .span s, some n, _, _ => ofSpan (s.mulInt n)
      | _, _, .span s, some n => ofSpan (s.mulInt n)
      | _, _, _, _ =>
        ((repetition? a b).orElse fun _ => repetition? b a).getD (inapplicable "*" a b)

/-- The quotient of two integers. -/
def quotient (m n : Int) : Except Fault Value :=
  if n = 0 then .error .divisionByZero
  else match Binary64.ofQuotient? m n with
    | some x => .ok (.float x)
    | none => .error .quotientTooLarge

/-- The quotient of two values. -/
def div (a b : Value) : Except Fault Value :=
  match a.integer?, b.integer? with
  | some m, some n => quotient m n
  | _, some n =>
    match a with
    | .span s => ofSpan (s.divInt n)
    | .float x => do
      let y ← b.toFloat
      if y.isZero then .error .floatDivisionByZero else .ok (.float (x.div y))
    | _ => inapplicable "/" a b
  | _, none =>
    match a, b with
    | .span s, .span t => quotient s.micros t.micros
    | .span s, .float x => ofSpan (s.divFloat x)
    | _, .float y =>
      if a.isNumber then do
        let x ← a.toFloat
        if y.isZero then .error .floatDivisionByZero else .ok (.float (x.div y))
      else inapplicable "/" a b
    | _, _ => inapplicable "/" a b

end Value

end LiveDoc
